import SpiceAgent.Daemon.HostLimits
import SpiceAgent.Daemon.PendingContract
import SpiceAgent.Lib.MapTotal

/-!
# The budget of a client

Every pending set that a client of the hub ever had is within the limits of one client, and every
snapshot is in the order of its keys. The invariant is about the books of the hub: the bytes, the
log and the views of every client and the snapshots of the observers. Most operations leave them
alone; a call that opens or ends records one delta.
-/

namespace SpiceAgent.Daemon

open SpiceAgent.Lib Option Finmap
open Function (update update_of_ne update_self)

/-- A pending set of values with a property, within the limits of one client. -/
structure Fits (limits : PendingLimits) (P : Pending → Prop) (set : PendingSet) : Prop where
  count_le : (count set : ℤ) ≤ limits.pendingPerClient
  total_le : total Pending.bytes set ≤ limits.pendingBytesPerClient
  values : ∀ key value, set.lookup key = some value → value.key = key ∧ P value

/-- A delta opens what is not pending or closes what is. -/
def Delta.Applies (delta : Delta) (set : PendingSet) : Prop :=
  match delta.kind with
  | .opened => delta.pending.key ∉ set
  | .closed => set.lookup delta.pending.key = some delta.pending

/-- The values are in the order of their keys, and no key occurs twice. -/
def Ordered (values : List Pending) : Prop :=
  values.Pairwise fun a b => a.key.le b.key ∧ a.key ≠ b.key

theorem entries_foldl_insert {values : List Pending} {set : PendingSet}
    (hdistinct : values.Pairwise fun a b => a.key ≠ b.key) (hnew : ∀ v ∈ values, v.key ∉ set) :
    (values.foldl (fun set value => set.insert value.key value) set).entries =
      set.entries + (values.map fun v => (⟨v.key, v⟩ : Σ _ : PendingKey, Pending) : List _) := by
  induction values generalizing set with
  | nil => exact (add_zero _).symm
  | cons a rest ih =>
    obtain ⟨hfirst, hrest⟩ := List.pairwise_cons.mp hdistinct
    rw [List.foldl_cons, ih hrest fun v hv => ?_,
      entries_insert_of_notMem (hnew a List.mem_cons_self), List.map_cons, ← Multiset.cons_coe,
      Multiset.cons_add, Multiset.add_cons]
    rw [mem_insert, not_or]
    exact ⟨(hfirst v hv).symm, hnew v (List.mem_cons_of_mem a hv)⟩

theorem Ordered.entries {snapshot : PendingSnapshot} (h : Ordered snapshot.pending) :
    snapshot.set.entries =
      (snapshot.pending.map fun v => (⟨v.key, v⟩ : Σ _ : PendingKey, Pending) : List _) := by
  refine (entries_foldl_insert (h.imp fun hab => hab.2) fun v _ => notMem_empty).trans ?_
  exact zero_add _

/-! ## Books -/

/-- What the hub has recorded of a client. -/
structure ClientBook where
  bytes : ℤ
  log : List Delta
  views : List PendingSet

/-- What the hub has recorded. -/
@[ext]
structure Books where
  limits : PendingLimits
  book : String → ClientBook
  snapshots : ℕ → Option PendingSnapshot

def ClientBook.new : ClientBook := ⟨0, [], [∅]⟩

def ClientBook.snoc (book : ClientBook) (bytes : ℤ) (delta : Delta) (view : PendingSet) :
    ClientBook :=
  ⟨bytes, book.log ++ [delta], book.views ++ [view]⟩

/-- The invariant of the book of a client. -/
structure ClientBook.Ok (limits : PendingLimits) (P : Pending → Prop) (book : ClientBook) :
    Prop where
  current : ∀ set, book.views.getLast? = some set → book.bytes = total Pending.bytes set
  fits : ∀ set ∈ book.views, Fits limits P set
  applies : ∀ (i : ℕ) (set : PendingSet) (delta : Delta), book.views[i]? = some set →
    book.log[i]? = some delta → delta.Applies set

namespace Books

def setBook (books : Books) (client : String) (book : ClientBook) : Books :=
  { books with book := update books.book client book }

def enlist (books : Books) (ref : ℕ) (snapshot : PendingSnapshot) : Books :=
  { books with snapshots := update books.snapshots ref (some snapshot) }

/-- The invariant of the books. -/
structure Ok (limits : PendingLimits) (P : Pending → Prop) (books : Books) : Prop where
  limits_eq : books.limits = limits
  clients : ∀ c, (books.book c).Ok limits P
  ordered : ∀ ref snapshot, books.snapshots ref = some snapshot → Ordered snapshot.pending

end Books

section

variable {limits : PendingLimits} {P : Pending → Prop} {books : Books} {book : ClientBook}
  {client : String} {set set' : PendingSet} {delta : Delta}

theorem fits_empty (hcount : 0 ≤ limits.pendingPerClient)
    (hbytes : 0 ≤ limits.pendingBytesPerClient) : Fits limits P ∅ :=
  ⟨by simpa using hcount, by simpa using hbytes, nofun⟩

theorem ClientBook.ok_new (h : Fits limits P ∅) : ClientBook.new.Ok limits P where
  current set hset := by
    cases hset
    rfl
  fits set hset := List.mem_singleton.mp hset ▸ h
  applies i set delta _ hdelta := by cases hdelta

theorem ClientBook.Ok.snoc (h : book.Ok limits P)
    (hlength : book.views.length = book.log.length + 1)
    (hlast : book.views.getLast? = some set) (happlies : delta.Applies set)
    (hfits : Fits limits P set') {bytes : ℤ} (hbytes : bytes = total Pending.bytes set') :
    (book.snoc bytes delta set').Ok limits P where
  current s hs := by
    change (book.views ++ [set']).getLast? = some s at hs
    rw [List.getLast?_concat] at hs
    rw [← some.inj hs]
    exact hbytes
  fits s hs := by
    rcases List.mem_append.mp hs with hold | hnew
    · exact h.fits s hold
    · exact List.mem_singleton.mp hnew ▸ hfits
  applies i s d hs hd := by
    change (book.views ++ [set'])[i]? = some s at hs
    change (book.log ++ [delta])[i]? = some d at hd
    rcases Nat.lt_or_ge i book.log.length with hi | hi
    · rw [List.getElem?_append_left (by omega)] at hs hd
      exact h.applies i s d hs hd
    · -- the new delta stands at the last of the old views
      have hilt := (List.getElem?_eq_some_iff.mp hd).1
      rw [List.length_append, List.length_singleton] at hilt
      obtain rfl : i = book.log.length := by omega
      rw [List.getElem?_append_left (by omega)] at hs
      rw [List.getLast?_eq_getElem?, hlength, Nat.add_sub_cancel, hs] at hlast
      rw [List.getElem?_concat_length] at hd
      rw [some.inj hlast, ← some.inj hd]
      exact happlies

theorem Books.setBook_congr {books books' : Books} {client : String}
    (hothers : ∀ c, c ≠ client → books'.book c = books.book c)
    (hlimits : books'.limits = books.limits)
    (hsnapshots : books'.snapshots = books.snapshots) (book : ClientBook) :
    books'.setBook client book = books.setBook client book := by
  refine Books.ext hlimits (funext fun c => ?_) hsnapshots
  change update books'.book client book c = update books.book client book c
  rcases eq_or_ne c client with rfl | hne
  · rw [update_self, update_self]
  · rw [update_of_ne hne, update_of_ne hne, hothers c hne]

theorem Books.Ok.setBook (h : books.Ok limits P) (hbook : book.Ok limits P) (client : String) :
    (books.setBook client book).Ok limits P where
  limits_eq := h.limits_eq
  clients :=
    forall_value_update (P := fun _ b => ClientBook.Ok limits P b) hbook fun c _ => h.clients c
  ordered := h.ordered

theorem Books.Ok.enlist (h : books.Ok limits P) (ref : ℕ) {snapshot : PendingSnapshot}
    (hordered : Ordered snapshot.pending) : (books.enlist ref snapshot).Ok limits P where
  limits_eq := h.limits_eq
  clients := h.clients
  ordered := forall_update (P := fun _ (s : PendingSnapshot) => Ordered s.pending)
    (fun i s _ hs => h.ordered i s hs) hordered

end

theorem Fits.opened {limits : PendingLimits} {P : Pending → Prop} {set : PendingSet}
    {value : Pending} (h : Fits limits P set) (hkey : value.key ∉ set) (hvalue : P value)
    (hcount : (count set : ℤ) < limits.pendingPerClient)
    (hbytes : total Pending.bytes set ≤ limits.pendingBytesPerClient - value.bytes) :
    Fits limits P (set.insert value.key value) where
  count_le := by
    rw [count_insert hkey]
    push_cast
    omega
  total_le := by
    rw [total_insert _ hkey]
    omega
  values key v hv := by
    rcases eq_or_ne key value.key with rfl | hne
    · rw [lookup_insert] at hv
      cases hv
      exact ⟨rfl, hvalue⟩
    · rw [lookup_insert_of_ne _ hne] at hv
      exact h.values key v hv

theorem Pending.bytes_nonneg (value : Pending) : 0 ≤ value.bytes := by
  unfold Pending.bytes
  omega

theorem Fits.closed {limits : PendingLimits} {P : Pending → Prop} {set : PendingSet}
    {value : Pending} (h : Fits limits P set) (hvalue : set.lookup value.key = some value) :
    Fits limits P (set.erase value.key) where
  count_le := by
    have := count_erase hvalue
    have := h.count_le
    omega
  total_le := by
    have := total_erase Pending.bytes hvalue
    have := value.bytes_nonneg
    have := h.total_le
    omega
  values key v hv := by
    rcases eq_or_ne key value.key with rfl | hne
    · rw [lookup_erase] at hv
      cases hv
    · rw [lookup_erase_ne hne] at hv
      exact h.values key v hv

/-! ## Operations that leave the books alone -/

def Partition.book (p : Partition) : ClientBook := ⟨p.pendingBytes, p.log, p.views⟩

namespace PendingHub

variable {hub hub' : PendingHub} {ref : ℕ} {watcher : Watcher} {client : String}

def books (hub : PendingHub) : Books where
  limits := hub.limits
  book c := (hub.partition c).book
  snapshots ref := (hub.watchers ref).map (·.snapshot)

theorem books_congr (hlimits : hub'.limits = hub.limits)
    (hbook : ∀ c, (hub'.partition c).book = (hub.partition c).book)
    (hsnapshots : ∀ i, (hub'.watchers i).map (·.snapshot) = (hub.watchers i).map (·.snapshot)) :
    hub'.books = hub.books :=
  Books.ext hlimits (funext hbook) (funext hsnapshots)

theorem Aside.books (h : hub.Aside hub') : hub'.books = hub.books := by
  refine books_congr h.limits (fun c => ?_) fun i => ?_
  · exact congrArg (fun a => ClientBook.mk a.2.2.1 a.2.2.2.1 a.2.2.2.2) (h.account c)
  · have hsnapshot := congrArg (Option.map fun p => p.2.1) (h.progress i)
    rwa [map_map, map_map] at hsnapshot

theorem setWatcher_books {watcher' : Watcher} (h : hub.watchers ref = some watcher)
    (hsnapshot : watcher'.snapshot = watcher.snapshot) :
    (hub.setWatcher ref watcher').books = hub.books :=
  books_congr rfl (fun _ => rfl) (map_update h hsnapshot)

theorem Delivery.books (h : hub.Delivery ref watcher hub') (hw : hub.watchers ref = some watcher) :
    hub'.books = hub.books := by
  cases h with
  | leave | take | send | discard => exact setWatcher_books hw rfl
  | delivered item _ =>
    unfold PendingHub.delivered
    dsimp only
    split_ifs
    · exact setWatcher_books hw rfl
    · exact books_congr rfl (apply_update (g := Partition.book) rfl) (map_update hw rfl)
  | stopped _ =>
    exact books_congr rfl (apply_update (g := Partition.book) rfl) (map_update hw rfl)

/-! ## Operations that write to the books -/

theorem publish_books (hub : PendingHub) (client : String) (kind : DeltaKind) (pending : Pending) :
    (hub.publish client kind pending).books = hub.books.setBook client
      ((hub.partition client).book.snoc (hub.partition client).pendingBytes
        ⟨((hub.partition client).revision + 1) % 2 ^ 64, kind, pending⟩ (hub.view client)) := by
  refine (publish_aside ..).books.trans ?_
  refine Books.ext rfl (funext fun c => ?_) rfl
  change (update hub.partition client _ c).book = update hub.books.book client _ c
  rcases eq_or_ne c client with rfl | hne
  · rw [update_self, update_self]
    rfl
  · rw [update_of_ne hne, update_of_ne hne]
    rfl

theorem register_books (hub : PendingHub) (ref : ℕ) (client : String) :
    (hub.register ref client).books = hub.books.enlist ref (hub.snapshot client) := by
  refine Books.ext rfl (funext (apply_update (g := Partition.book) rfl)) (funext fun i => ?_)
  change (update hub.watchers ref _ i).map _ = update hub.books.snapshots ref _ i
  rcases eq_or_ne i ref with rfl | hne
  · rw [update_self, update_self]
    rfl
  · rw [update_of_ne hne, update_of_ne hne]
    rfl

theorem createPartition_books (hc : hub.createPartition client = some hub') :
    hub'.books = hub.books ∨ hub'.books = hub.books.setBook client .new := by
  unfold createPartition at hc
  split_ifs at hc
  · exact .inl (some.inj hc ▸ rfl)
  · cases hc
    refine .inr (Books.ext rfl (funext fun c => ?_) rfl)
    change (update hub.partition client .new c).book =
      update hub.books.book client _ c
    rcases eq_or_ne c client with rfl | hne
    · rw [update_self, update_self]
      rfl
    · rw [update_of_ne hne, update_of_ne hne]
      rfl

/-! ## The budget of the hub -/

/-- The invariant of the hub and of its books. -/
structure Budgeted (limits : PendingLimits) (P : Pending → Prop) (hub : PendingHub) : Prop where
  inv : hub.Inv
  ok : hub.books.Ok limits P

section

variable {limits : PendingLimits} {P allowed : Pending → Prop} {delta : Delta}

theorem Budgeted.same (h : hub.Budgeted limits P) (hinv : hub'.Inv)
    (hbooks : hub'.books = hub.books) : hub'.Budgeted limits P :=
  ⟨hinv, hbooks ▸ h.ok⟩

theorem count_view (hub : PendingHub) (c : String) :
    count (hub.view c) = (hub.partition c).pending.keys.length := by
  have hnodup : ((hub.partition c).pending.entries.map fun e =>
      (⟨e.1, hub.valueOf e.2⟩ : Σ _ : PendingKey, Pending)).NodupKeys := by
    unfold List.NodupKeys List.keys
    rw [List.map_map]
    exact (hub.partition c).pending.keys_nodup
  have hperm := List.lookup_ext (List.nodupKeys_dedupKeys _) hnodup fun a b => by
    rw [List.dlookup_dedupKeys]
  have hlength := hperm.length_eq
  rw [List.length_map] at hlength
  exact hlength.trans (List.length_map _).symm

theorem Inv.last (h : hub.Inv) (c : String) :
    (hub.partition c).book.views.getLast? = some (hub.view c) :=
  h.current c

theorem Budgeted.fits (h : hub.Budgeted limits P) (c : String) : Fits limits P (hub.view c) :=
  (h.ok.clients c).fits _ (List.mem_of_getLast? (h.inv.last c))

theorem Budgeted.bytes (h : hub.Budgeted limits P) (c : String) :
    (hub.partition c).pendingBytes = total Pending.bytes (hub.view c) :=
  (h.ok.clients c).current _ (h.inv.last c)

theorem Budgeted.publish (h : hub.Budgeted limits P) (hinv : hub'.Inv) {bytes : ℤ}
    {view : PendingSet} (hbooks : hub'.books =
      hub.books.setBook client ((hub.partition client).book.snoc bytes delta view))
    (happlies : delta.Applies (hub.view client))
    (hfits : Fits limits P (delta.apply (hub.view client)))
    (hbytes : bytes = total Pending.bytes (delta.apply (hub.view client))) :
    hub'.Budgeted limits P := by
  have hp := h.inv.owing.partitions client
  have hlength := hp.follows.length
  have hlast := h.inv.last client
  have hbook : (hub'.partition client).book =
      (hub.partition client).book.snoc bytes delta view := by
    have := congrArg (fun books => books.book client) hbooks
    exact this.trans (update_self ..)
  -- the last view follows from the one before it
  have hview : view = delta.apply (hub.view client) := by
    have hnext := (hinv.owing.partitions client).follows.next
      (hub.partition client).log.length (hub.view client) delta
    rw [show (hub'.partition client).views = (hub.partition client).views ++ [view] from
        congrArg ClientBook.views hbook,
      show (hub'.partition client).log = (hub.partition client).log ++ [delta] from
        congrArg ClientBook.log hbook] at hnext
    rw [List.getLast?_eq_getElem?, show (hub.partition client).book.views.length - 1 =
      (hub.partition client).log.length from Nat.sub_eq_of_eq_add hlength] at hlast
    have hnew := hnext (by rw [List.getElem?_append_left (by omega)]; exact hlast)
      (List.getElem?_concat_length ..)
    rw [← hlength, List.getElem?_concat_length] at hnew
    exact some.inj hnew
  refine ⟨hinv, hbooks ▸ h.ok.setBook ?_ client⟩
  rw [hview]
  exact (h.ok.clients client).snoc hlength (h.inv.last client) happlies hfits hbytes

theorem openCall_books (hub : PendingHub) (ref binding : ℕ) (state : RunBinding) (value : Pending) :
    (hub.openCall ref binding state value).books = hub.books.setBook state.clientID
      ((hub.partition state.clientID).book.snoc
        ((hub.partition state.clientID).pendingBytes + value.bytes)
        ⟨((hub.partition state.clientID).revision + 1) % 2 ^ 64, .opened, value⟩
        ((hub.recorded ref binding state value).view state.clientID)) := by
  refine (publish_books (hub.recorded ref binding state value) _ _ _).trans ?_
  have hself : (hub.recorded ref binding state value).partition state.clientID =
      { hub.partition state.clientID with
        pending := (hub.partition state.clientID).pending.insert value.key ref
        pendingBytes := (hub.partition state.clientID).pendingBytes + value.bytes } :=
    update_self ..
  rw [hself]
  have hothers : ∀ c, c ≠ state.clientID →
      (hub.recorded ref binding state value).books.book c = hub.books.book c := fun c hne =>
    congrArg Partition.book (update_of_ne hne ..)
  exact Books.setBook_congr hothers rfl rfl _

theorem settled_partition (hub : PendingHub) (client : String) (key : PendingKey) (ref : ℕ)
    (call : PendingCall) (result : PendingResult) :
    (hub.settled client key ref call result).partition = update hub.partition client
      { hub.partition client with
        pending := (hub.partition client).pending.erase key
        pendingBytes := (hub.partition client).pendingBytes - call.value.bytes } := by
  unfold settled
  dsimp only
  split <;> rfl

theorem settled_limits (hub : PendingHub) (client : String) (key : PendingKey) (ref : ℕ)
    (call : PendingCall) (result : PendingResult) :
    (hub.settled client key ref call result).limits = hub.limits := by
  unfold settled
  dsimp only
  split <;> rfl

theorem finishCall_books (client : String) {call : PendingCall} (hcall : hub.calls ref = some call)
    (key : PendingKey) (result : PendingResult) :
    (hub.finishCall client key ref call result).books = hub.books.setBook client
      ((hub.partition client).book.snoc
        ((hub.partition client).pendingBytes - call.value.bytes)
        ⟨((hub.partition client).revision + 1) % 2 ^ 64, .closed, call.value⟩
        ((hub.settled client key ref call result).view client)) := by
  refine (removeReleasedBinding_aside _ _).books.trans
    ((publish_books (hub.settled client key ref call result) _ _ _).trans ?_)
  have hself := congrFun (hub.settled_partition client key ref call result) client
  rw [update_self] at hself
  rw [hself]
  have hs := settled_step client hcall key result
  refine Books.setBook_congr (fun c hne => congrArg Partition.book (hs.elsewhere c hne))
    (hub.settled_limits ..) (funext fun i => ?_) _
  exact congrArg (fun w : ℕ → Option Watcher => (w i).map (·.snapshot)) hs.watchers

theorem Budgeted.openCall (h : hub.Budgeted limits P) {binding : ℕ} {state : RunBinding}
    {value : Pending} (href : hub.calls ref = none) (hadmits : hub.Admits binding state value)
    (hvalue : P value) : (hub.openCall ref binding state value).Budgeted limits P := by
  have hnot : value.key ∉ hub.view state.clientID := by
    rw [← lookup_eq_none, lookup_view, AList.lookup_eq_none.mpr hadmits.key]
    rfl
  have hcapacity := hadmits.capacity
  have hlimits : hub.limits = limits := h.ok.limits_eq
  simp only [hasPendingCapacity, Bool.and_eq_true, decide_eq_true_eq, hlimits] at hcapacity
  have hcount := hub.count_view state.clientID
  have hbytes := h.bytes state.clientID
  have htotal : total Pending.bytes ((hub.view state.clientID).insert value.key value) =
      total Pending.bytes (hub.view state.clientID) + value.bytes := total_insert _ hnot
  refine h.publish (h.inv.openCall href hadmits) (hub.openCall_books ..) hnot
    ((h.fits state.clientID).opened hnot hvalue ?_ ?_) ?_
  · omega
  · rw [← hbytes]
    exact hcapacity.2
  · rw [hbytes]
    exact htotal.symm

theorem Budgeted.finishCall (h : hub.Budgeted limits P) {key : PendingKey} {call : PendingCall}
    (hkey : (hub.partition client).pending.lookup key = some ref)
    (hcall : hub.calls ref = some call)
    (result : PendingResult) : (hub.finishCall client key ref call result).Budgeted limits P := by
  have hvalue : (hub.view client).lookup call.value.key = some call.value := by
    obtain ⟨value, hof, hk⟩ := (h.inv.owing.partitions client).pending key ref hkey
    obtain rfl : call.value = value := by
      obtain ⟨call', -, hcall', rfl, -⟩ := hof
      rw [some.inj (hcall.symm.trans hcall')]
    rw [lookup_view, hk, hkey, map_some, valueOf_eq hof]
  have htotal := total_erase Pending.bytes hvalue
  refine h.publish (h.inv.finishCall hkey hcall result) (finishCall_books client hcall key result)
    hvalue ((h.fits client).closed hvalue) ?_
  rw [h.bytes]
  change _ = total Pending.bytes ((hub.view client).erase call.value.key)
  omega

/-! ## Snapshots -/

instance : Std.Total fun a b : Pending => a.key.le b.key where
  total a b := by
    unfold PendingKey.le
    rcases lt_trichotomy (utf8 a.key.runID) (utf8 b.key.runID) with h | h | h
    · exact .inl (.inl h)
    · have hrun := utf8_injective h
      exact (le_total a.key.interactionID b.key.interactionID).imp (fun hle => .inr ⟨hrun, hle⟩)
        fun hle => .inr ⟨hrun.symm, hle⟩
    · exact .inr (.inl h)

instance : IsTrans Pending fun a b => a.key.le b.key where
  trans a b c := by
    unfold PendingKey.le
    rintro (hab | ⟨hab, hle⟩) (hbc | ⟨hbc, hle'⟩)
    · exact .inl (hab.trans hbc)
    · exact .inl (hbc ▸ hab)
    · exact .inl (hab ▸ hbc)
    · exact .inr ⟨hab.trans hbc, hle.trans hle'⟩

theorem PartitionOk.ordered (hp : hub.PartitionOk client (hub.partition client)) :
    Ordered (hub.snapshot client).pending := by
  have hsorted := List.pairwise_insertionSort (fun a b : Pending => a.key.le b.key)
    ((hub.partition client).pending.entries.map fun e => hub.valueOf e.2)
  refine hsorted.and ?_
  have hperm := List.perm_insertionSort (fun a b : Pending => a.key.le b.key)
    ((hub.partition client).pending.entries.map fun e => hub.valueOf e.2)
  refine (hperm.pairwise_iff fun h => h.symm).mpr (List.pairwise_map.mpr ?_)
  -- the key of a pending value is the one it is stored under
  have hkey : ∀ e ∈ (hub.partition client).pending.entries, (hub.valueOf e.2).key = e.1 := by
    rintro ⟨key, ref⟩ hmem
    obtain ⟨value, hcall, hk⟩ := hp.pending key ref (AList.mem_lookup_iff.mpr hmem)
    rw [valueOf_eq hcall, hk]
  have hnodup := List.pairwise_map.mp (hub.partition client).pending.keys_nodup
  refine hnodup.imp_of_mem fun {a b} ha hb hne => ?_
  rw [hkey a ha, hkey b hb]
  exact hne

theorem Budgeted.createPartition (h : hub.Budgeted limits P) (hempty : Fits limits P ∅)
    (hc : hub.createPartition client = some hub') : hub'.Budgeted limits P := by
  refine ⟨(h.inv.createPartition hc).1, ?_⟩
  rcases createPartition_books hc with hbooks | hbooks
  · exact hbooks ▸ h.ok
  · exact hbooks ▸ h.ok.setBook (ClientBook.ok_new hempty) client

section

variable (hvalue : ∀ value, allowed value → P value) (hempty : Fits limits P ∅)
    (h : hub.Budgeted limits P)
include hvalue hempty h

/-- The books after an edit, where what a request makes pending has the property. -/
theorem Edit.budgeted (he : hub.Edit allowed hub') : hub'.Budgeted limits P := by
  have hinv := he.inv h.inv
  cases he with
  | shut => exact h.same hinv rfl
  | stopAccepting ref => exact h.same hinv (hub.stopAccepting_aside ref).books
  | release ref binding hbinding => exact h.same hinv rfl
  | removeReleasedBinding ref => exact h.same hinv (hub.removeReleasedBinding_aside ref).books
  | createPartition client hcreate => exact h.createPartition hempty hcreate
  | bind ref client runID _ =>
    exact h.same hinv (books_congr rfl (apply_update (g := Partition.book) rfl) fun _ => rfl)
  | openCall ref binding state value hfresh hadmits hallowed =>
    exact h.openCall hfresh hadmits (hvalue value hallowed)
  | finishCall client key ref call result hkey hcall => exact h.finishCall hkey hcall result
  | closeDone ref call _ => exact h.same hinv rfl
  | finishWatcher ref err exhausted =>
    exact h.same hinv (hub.finishWatcher_aside ref err exhausted).books

theorem Turn.budgeted (ht : hub.Turn allowed hub') : hub'.Budgeted limits P := by
  have hinv := ht.inv h.inv
  cases ht with
  | edits he =>
    clear hinv
    induction he with
    | refl => exact h
    | tail _ hedit ih => exact hedit.budgeted hvalue hempty ih
  | @join hub' ref client _ hcreate _ =>
    have h' := h.createPartition hempty hcreate
    refine ⟨hinv, ?_⟩
    rw [register_books]
    exact h'.ok.enlist ref (h'.inv.owing.partitions client).ordered
  | deliver ref watcher hw hd => exact h.same hinv (hd.books hw)

end

end

end PendingHub

/-! ## Runs -/

namespace PendingWorld

variable {isJson : List UInt8 → Bool} {limits : PendingLimits} {P : Pending → Prop}
  {w w' : PendingWorld} {ref : ℕ} {watcher : Watcher}

theorem reachable_budgeted {C : PendingWorld → Label → Prop} (hempty : Fits limits P ∅)
    (hvalue : ∀ w id runID request ctxDone, C w (.request id runID request ctxDone) →
      Interaction.validScope runID → request.validate isJson → P ⟨runID, request⟩)
    (h : (pendingSystem isJson limits).ReachableIf C w) : w.hub.Budgeted limits P := by
  refine h.invariant (I := fun w => w.hub.Budgeted limits P) ?_ ?_
  · refine ⟨(init_inv isJson limits).hub, ?_⟩
    exact ⟨rfl, fun _ => ClientBook.ok_new hempty, nofun⟩
  · intro w l w' _ hw hc hstep
    refine (step_turn hstep).1.budgeted (fun value hopens => ?_) hempty hw
    cases l with
    | request id runID request ctxDone =>
      obtain ⟨rfl, htoken, hvalid⟩ := hopens
      exact hvalue w id runID request ctxDone hc htoken hvalid
    | _ => exact hopens.elim

end PendingWorld

end SpiceAgent.Daemon
