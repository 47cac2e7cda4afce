import OpenCsv.Cbf.Wire
import OpenCsv.Lib.Call
import OpenCsv.Lib.Recency
import OpenCsv.Lib.Sha256
import OpenCsv.Lib.Sorting
import OpenCsv.Lib.System
import OpenCsv.Lib.Table

/-!
# The cache of circuit setups

Building the setup of a circuit is expensive, so a bounded cache keeps the setups by identity.
The identity is a digest of everything the setup depends on; a call builds under the lock of the
cache, so calls happen one after the other.

The circuit is known by the texts that its fields are hashed as; the fields that are maps are
sorted first.  The counters of the tests are left out.

**Results.**
* `setup_cache_latest`: the cache holds the identities that were used last, as many as have a
  place, each with the setup that was handed out for it, and a call builds exactly when its
  identity is not among them.
* `setup_identity_eq_iff`: equal identities come from the same domain, the same circuit, and the
  same parameters and parent keys in one row.
-/

namespace OpenCsv

open Call Recency

section Cache

/-- A bounded cache of setups, and the order of their last uses. -/
structure SetupCache (ι α : Type) where
  capacity : ℕ
  entries : Table ι α
  oldestFirst : List ι

namespace SetupCache

variable {ι α ε : Type}
variable [DecidableEq ι]

/-- A cache without setups. -/
def new (capacity : ℕ) : SetupCache ι α where
  capacity
  entries := .empty
  oldestFirst := []

/-- The identity becomes the newest. -/
def touch (order : List ι) (identity : ι) : List ι :=
  order.erase identity ++ [identity]

/-- Give up the oldest setups until there is a place; an empty order clears the cache. -/
def evict (capacity : ℕ) : List ι → Table ι α → List ι × Table ι α
  | [], entries => if capacity ≤ entries.rows.length then ([], .empty) else ([], entries)
  | evicted :: order, entries =>
      if capacity ≤ entries.rows.length then evict capacity order (entries.delete evicted)
      else (evicted :: order, entries)

/-- A setup that was built takes its place. -/
def insertBuilt (c : SetupCache ι α) (identity : ι) (setup : α) : SetupCache ι α :=
  let kept := evict c.capacity c.oldestFirst c.entries
  { c with entries := kept.2.put identity setup, oldestFirst := kept.1 ++ [identity] }

/-- `get_or_try_insert_with`: the setup of the cache, or else the one that is built. -/
def getOrTryInsertWith
    (identity : ι)
    (build : Except ε α) : Call ε (SetupCache ι α) α := do
  let state ← get
  match state.entries.get identity with
  | some existing => do
      modify fun c => { c with oldestFirst := touch c.oldestFirst identity }
      pure existing
  | none => do
      let setup ← lift build
      modify fun c => c.insertBuilt identity setup
      pure setup

/-- Drop every setup. -/
def reset (c : SetupCache ι α) : SetupCache ι α :=
  { c with entries := .empty, oldestFirst := [] }

end SetupCache

/-- The calls of a cache; `build` is what building would give. -/
inductive SetupCall (ι α ε : Type) where
  | getOrTryInsertWith (identity : ι) (build : Except ε α)
  | reset

variable {ι α ε : Type}
variable [DecidableEq ι]

/-- A setup that is handed out is a use of its identity. -/
def recordUse (identity : ι) (uses : List (ι × α)) : Except ε α → List (ι × α)
  | .ok setup => (identity, setup) :: uses
  | .error _ => uses

/-- The runs of a cache, with what it handed out since the last reset, newest first. -/
def setupCaches
    (ε : Type)
    (capacity : ℕ) : System (SetupCache ι α × List (ι × α)) (SetupCall ι α ε) where
  init := fun s => s = (.new capacity, [])
  step := fun s call s' =>
    match call with
    | .getOrTryInsertWith identity build =>
        s'.1 = final (SetupCache.getOrTryInsertWith identity build) s.1 ∧
          s'.2 = recordUse identity s.2
            (answer (SetupCache.getOrTryInsertWith identity build) s.1)
    | .reset => s' = (s.1.reset, [])

end Cache

section Order

variable {ι α ε : Type}
variable [DecidableEq ι]
variable {c : SetupCache ι α}
variable {held : List (ι × α)}

/-- The cache holds these setups, the one used last in front. -/
structure SetupCache.Holds (c : SetupCache ι α) (held : List (ι × α)) : Prop where
  order : c.oldestFirst = (held.map Prod.fst).reverse
  entries : c.entries.rows.Perm held

namespace SetupCache.Holds

omit [DecidableEq ι] in
theorem nodup
    (h : c.Holds held) :
    (held.map Prod.fst).Nodup :=
  (h.entries.map Prod.fst).nodup_iff.mp c.entries.nodup

theorem get_eq_some_iff
    (h : c.Holds held)
    {identity : ι}
    {setup : α} :
    c.entries.get identity = some setup ↔ (identity, setup) ∈ held := by
  rw [← Table.mem_rows_iff, h.entries.mem_iff]

theorem get_eq_lookup
    (h : c.Holds held)
    (identity : ι) :
    c.entries.get identity = held.lookup identity := by
  refine Option.ext (fun setup => ?_)
  rw [h.get_eq_some_iff, Table.lookup_eq_some_iff h.nodup]

/-- A hit brings the setup to the front. -/
theorem touch
    (h : c.Holds held)
    {identity : ι}
    {setup : α}
    (hmem : (identity, setup) ∈ held) :
    ({ c with oldestFirst := SetupCache.touch c.oldestFirst identity } : SetupCache ι α).Holds
      ((identity, setup) :: held.filter (fun other => other.1 != identity)) := by
  obtain ⟨before, after, rfl⟩ := List.append_of_mem hmem
  have hnodup := h.nodup
  rw [List.map_append, List.map_cons, List.nodup_middle, List.nodup_cons, List.mem_append,
    not_or] at hnodup
  obtain ⟨⟨hbefore, hafter⟩, -⟩ := hnodup
  have hfilter : (before ++ (identity, setup) :: after).filter
      (fun other => other.1 != identity) = before ++ after := by
    rw [List.filter_append, List.filter_cons_of_neg (by simp), filter_ne_of_notMem hbefore,
      filter_ne_of_notMem hafter]
  rw [hfilter]
  refine ⟨?_, h.entries.trans List.perm_middle⟩
  show c.oldestFirst.erase identity ++ [identity] = _
  have hout : identity ∉ (after.map Prod.fst).reverse := by simpa using hafter
  rw [h.order, List.map_append, List.map_cons, List.reverse_append, List.reverse_cons,
    List.append_assoc, List.erase_append_right _ hout, List.singleton_append,
    List.erase_cons_head]
  simp

/-- Giving up the oldest setups leaves the newest, one place free. -/
theorem evict
    {n : ℕ}
    {order : List ι}
    {entries : Table ι α}
    (horder : order = (held.map Prod.fst).reverse)
    (hentries : entries.rows.Perm held) :
    (SetupCache.evict (n + 1) order entries).1 = ((held.take n).map Prod.fst).reverse ∧
      (SetupCache.evict (n + 1) order entries).2.rows.Perm (held.take n) := by
  subst horder
  induction held using List.reverseRecOn generalizing entries with
  | nil =>
      have hlength : entries.rows.length = 0 := hentries.length_eq
      have hroom : ¬n + 1 ≤ entries.rows.length := by omega
      simpa [SetupCache.evict, hroom] using hentries.eq_nil
  | append_singleton held oldest ih =>
      have hlength : entries.rows.length = held.length + 1 := by
        rw [hentries.length_eq, List.length_append, List.length_singleton]
      rw [List.map_append, List.reverse_append, List.map_singleton, List.reverse_singleton,
        List.singleton_append, SetupCache.evict]
      split_ifs with hfull
      · -- the oldest is given up
        have hnodup := (hentries.map Prod.fst).nodup_iff.mp entries.nodup
        rw [List.map_append, List.map_singleton] at hnodup
        have hout : oldest.1 ∉ held.map Prod.fst := fun hmem =>
          (List.nodup_append.mp hnodup).2.2 _ hmem _ (List.mem_singleton_self _) rfl
        have hdelete : (entries.delete oldest.1).rows.Perm held := by
          refine (hentries.filter (fun other => other.1 != oldest.1)).trans ?_
          rw [List.filter_append, filter_ne_of_notMem hout]
          simp
        have hle : n ≤ held.length := by omega
        rw [List.take_append_of_le_length hle]
        exact ih hdelete
      · have hle : (held ++ [oldest]).length ≤ n := by
          rw [List.length_append, List.length_singleton]
          omega
        rw [List.take_of_length_le hle]
        refine ⟨?_, hentries⟩
        simp

/-- A setup that was built comes to the front, and the oldest go. -/
theorem insertBuilt
    {n : ℕ}
    (h : c.Holds held)
    (hcapacity : c.capacity = n + 1)
    {identity : ι}
    (hnew : identity ∉ held.map Prod.fst)
    (setup : α) :
    (c.insertBuilt identity setup).Holds ((identity, setup) :: held.take n) := by
  obtain ⟨horder, hentries⟩ := evict (n := n) h.order h.entries
  have hout : identity ∉ (held.take n).map Prod.fst := fun hmem =>
    hnew (((List.take_sublist n held).map Prod.fst).subset hmem)
  have hnone : (SetupCache.evict (n + 1) c.oldestFirst c.entries).2.get identity = none := by
    rw [Table.get_eq_none_iff]
    exact fun hmem => hout ((hentries.map Prod.fst).mem_iff.mp hmem)
  constructor
  · show (SetupCache.evict c.capacity c.oldestFirst c.entries).1 ++ [identity] = _
    rw [hcapacity, horder]
    simp
  · show ((SetupCache.evict c.capacity c.oldestFirst c.entries).2.put identity setup).rows.Perm _
    rw [hcapacity, Table.rows_put_of_none hnone]
    exact (List.perm_append_comm.trans (List.Perm.cons _ hentries))

end SetupCache.Holds

end Order

section Runs

variable {ι α ε : Type}
variable [DecidableEq ι]
variable {capacity : ℕ}
variable {s : SetupCache ι α × List (ι × α)}

/-- What the runs keep: the places, and the identities that were used last. -/
structure SetupCache.Recent
    (capacity : ℕ)
    (c : SetupCache ι α)
    (uses : List (ι × α)) : Prop where
  places : c.capacity = capacity
  holds : c.Holds ((latest uses).take capacity)

namespace SetupCache.Recent

variable {c : SetupCache ι α}
variable {uses : List (ι × α)}
variable {identity : ι}
variable {build : Except ε α}

/-- A call answers from the setups that were used last, or else with what it builds. -/
theorem answer_eq
    (h : c.Recent capacity uses) :
    answer (getOrTryInsertWith identity build) c =
      (((latest uses).take capacity).lookup identity).elim build .ok := by
  rw [← h.holds.get_eq_lookup]
  unfold answer getOrTryInsertWith
  rw [get_bind_apply]
  cases c.entries.get identity with
  | some existing => rfl
  | none =>
      cases build with
      | error e => rfl
      | ok setup => rfl

/-- A call keeps what the runs keep. -/
theorem call
    (hcapacity : 0 < capacity)
    (h : c.Recent capacity uses) :
    (final (getOrTryInsertWith identity build) c).Recent capacity
      (recordUse identity uses (answer (getOrTryInsertWith identity build) c)) := by
  obtain ⟨n, rfl⟩ := Nat.exists_eq_succ_of_ne_zero hcapacity.ne'
  have hanswer : answer (getOrTryInsertWith identity build) c =
      (((latest uses).take (n + 1)).lookup identity).elim build .ok :=
    h.answer_eq
  rw [← h.holds.get_eq_lookup] at hanswer
  rw [hanswer]
  unfold final getOrTryInsertWith
  rw [get_bind_apply]
  cases hget : c.entries.get identity with
  | some existing =>
      have hmem := h.holds.get_eq_some_iff.mp hget
      refine ⟨h.places, ?_⟩
      show SetupCache.Holds _ ((latest ((identity, existing) :: uses)).take (n + 1))
      rw [take_latest_of_mem (List.mem_map.mpr ⟨_, hmem, rfl⟩)]
      exact h.holds.touch hmem
  | none =>
      cases build with
      | error e => exact h
      | ok setup =>
          have hnew : identity ∉ ((latest uses).take (n + 1)).map Prod.fst := by
            intro hmem
            obtain ⟨⟨_, existing⟩, hpair, rfl⟩ := List.mem_map.mp hmem
            rw [h.holds.get_eq_some_iff.mpr hpair] at hget
            cases hget
          refine ⟨h.places, ?_⟩
          show SetupCache.Holds _ ((latest ((identity, setup) :: uses)).take (n + 1))
          rw [take_latest_of_notMem hnew]
          exact h.holds.insertBuilt h.places hnew setup

end SetupCache.Recent

/-- An empty cache holds the uses of an empty history. -/
theorem SetupCache.recent_empty
    (capacity : ℕ) :
    (SetupCache.new capacity : SetupCache ι α).Recent capacity [] :=
  ⟨rfl, by simp [latest, SetupCache.new], by simp [latest, SetupCache.new, Table.empty]⟩

/-- In every run the cache holds the identities that were used last. -/
theorem recent_of_reachable
    (hcapacity : 0 < capacity)
    (h : (setupCaches ε capacity).Reachable s) :
    s.1.Recent capacity s.2 := by
  refine @System.Reachable.invariant _ _ _ (fun s => s.1.Recent capacity s.2) ?_ ?_ s h
  · rintro _ rfl
    exact SetupCache.recent_empty capacity
  · rintro s call s' hrecent hstep
    cases call with
    | getOrTryInsertWith identity build =>
        obtain ⟨hcache, huses⟩ := hstep
        rw [hcache, huses]
        exact hrecent.call hcapacity
    | reset =>
        obtain rfl := hstep
        have hempty := SetupCache.recent_empty (ι := ι) (α := α) capacity
        exact ⟨hrecent.places, hempty.holds.order, hempty.holds.entries⟩

/--
After every sequence of calls the cache holds exactly the identities that were used last since
the last reset, as many as have a place, each with the setup that was handed out for it; a call
for one of them answers that setup whatever building would give, and a call for another answers
what is built.
-/
theorem setup_cache_latest
    (hcapacity : 0 < capacity)
    (h : (setupCaches ε capacity).Reachable s) :
    s.1.oldestFirst = (((latest s.2).take capacity).map Prod.fst).reverse ∧
      s.1.entries.rows.Perm ((latest s.2).take capacity) ∧
      ∀ identity (build : Except ε α),
        answer (SetupCache.getOrTryInsertWith identity build) s.1 =
          (((latest s.2).take capacity).lookup identity).elim build .ok := by
  have hrecent := recent_of_reachable hcapacity h
  exact ⟨hrecent.holds.order, hrecent.holds.entries, fun _ _ => hrecent.answer_eq⟩

namespace SampleSetups

/-- A call, with the history it leaves. -/
def after
    (s : SetupCache ℕ ℕ × List (ℕ × ℕ))
    (identity : ℕ)
    (build : Except Unit ℕ) : SetupCache ℕ ℕ × List (ℕ × ℕ) :=
  (final (SetupCache.getOrTryInsertWith identity build) s.1,
    recordUse identity s.2 (answer (SetupCache.getOrTryInsertWith identity build) s.1))

/-- Two setups, then the first again, whose build would fail. -/
def warm : SetupCache ℕ ℕ × List (ℕ × ℕ) :=
  after (after (after (.new 2, []) 1 (.ok 10)) 2 (.ok 20)) 1 (.error ())

/-- A third setup: the second is given up. -/
def full : SetupCache ℕ ℕ × List (ℕ × ℕ) :=
  after warm 3 (.ok 30)

theorem reachable_after
    {s : SetupCache ℕ ℕ × List (ℕ × ℕ)}
    (h : (setupCaches Unit 2).Reachable s)
    (identity : ℕ)
    (build : Except Unit ℕ) :
    (setupCaches Unit 2).Reachable (after s identity build) :=
  System.Reachable.step (a := SetupCall.getOrTryInsertWith identity build) h ⟨rfl, rfl⟩

theorem reachable_full :
    (setupCaches Unit 2).Reachable full :=
  reachable_after (reachable_after (reachable_after (reachable_after (.init rfl) 1 (.ok 10)) 2
    (.ok 20)) 1 (.error ())) 3 (.ok 30)

theorem full_latest :
    full.1.oldestFirst = (((latest full.2).take 2).map Prod.fst).reverse ∧
      full.1.entries.rows.Perm ((latest full.2).take 2) ∧
      ∀ identity (build : Except Unit ℕ),
        answer (SetupCache.getOrTryInsertWith identity build) full.1 =
          (((latest full.2).take 2).lookup identity).elim build .ok :=
  setup_cache_latest (by decide) reachable_full

example : full.1.oldestFirst = [1, 3] := by decide

end SampleSetups

end Runs

section Identity

/-- `hash_part`: the length, and then the bytes. -/
def hashPart (part : List UInt8) : List UInt8 :=
  leBytes 8 part.length ++ part

/-- The domain, the upstream revision and the package version, which open every identity. -/
def identityPrefix : List (List UInt8) :=
  [ (Text.lit "opencsv-pcd/setup-identity/v1").bytes,
    (Text.lit "opencsvnet/plonky3-recursion/28c9a37f31a7f69877a62cb372ddffce1f3f8189").bytes,
    (Text.lit "0.1.0").bytes ]

/-- The texts that the fields of a circuit are hashed as; the fields in lists are maps. -/
structure CircuitText where
  witnessCount : List UInt8
  ops : List UInt8
  publicRows : List UInt8
  publicFlatLen : List UInt8
  privateInputRows : List UInt8
  privateFlatLen : List UInt8
  enabledOps : List (List UInt8)
  exprToWidx : List (List UInt8)
  nonPrimitiveTraceGenerators : List (List UInt8)
  nonPrimitiveTraceGeneratorOrder : List UInt8
  tagToWitness : List (List UInt8)
  tagToOpId : List (List UInt8)
  witnessRewrite : Option (List (List UInt8))

/-- `hash_sorted_debug` hashes the texts of a map in their order. -/
def sorted (texts : List (List UInt8)) : List (List UInt8) :=
  texts.insertionSort (fun a b => bytesLe a b = true)

/-- What is hashed of a circuit, in order. -/
def CircuitText.parts (c : CircuitText) : List (List UInt8) :=
  [c.witnessCount, c.ops, c.publicRows, c.publicFlatLen, c.privateInputRows, c.privateFlatLen] ++
    sorted c.enabledOps ++ sorted c.exprToWidx ++ sorted c.nonPrimitiveTraceGenerators ++
    [c.nonPrimitiveTraceGeneratorOrder] ++ sorted c.tagToWitness ++ sorted c.tagToOpId ++
    (match c.witnessRewrite with
      | some rewrites => sorted rewrites
      | none => [(Text.lit "no-witness-rewrite").bytes])

/-- `from_components` hashes this, part by part. -/
def identityParts
    (domain : List UInt8)
    (components : List (List UInt8))
    (verificationKeys : List (Bytes 32)) : List (List UInt8) :=
  identityPrefix ++ domain :: components ++ verificationKeys.map List.Vector.toList

variable (sha256 : Sha256)

/-- `SetupIdentity::from_components` -/
def fromComponents
    (domain : List UInt8)
    (components : List (List UInt8))
    (verificationKeys : List (Bytes 32)) : Bytes 32 :=
  sha256 ((identityParts domain components verificationKeys).flatMap hashPart)

/-- The digest of a circuit. -/
def circuitDigest (circuit : CircuitText) : Bytes 32 :=
  sha256 (circuit.parts.flatMap hashPart)

/-- `SetupIdentity::for_circuit` -/
def forCircuit
    (domain : List UInt8)
    (circuit : CircuitText)
    (parameters : List (List UInt8))
    (verificationKeys : List (Bytes 32)) : Bytes 32 :=
  fromComponents sha256 domain ((circuitDigest sha256 circuit).toList :: parameters)
    verificationKeys

/-- A part can be hashed: its length fits. -/
abbrev Hashable (part : List UInt8) : Prop :=
  part.length < 2 ^ 64

theorem hashable_of_all
    {parts : List (List UInt8)}
    (h : parts.all (fun part => part.length < 2 ^ 64) = true) :
    ∀ part ∈ parts, Hashable part := by
  simpa using h

/-- The digest does not collide on the two messages. -/
abbrev DigestApart (x y : List UInt8) : Prop :=
  sha256 x = sha256 y → x = y

variable {sha256}

theorem delimits_hashPart :
    Delimits Hashable hashPart := by
  intro part part' hpart hpart' s t heq
  simp only [hashPart, List.append_assoc] at heq
  obtain ⟨hlength, hrest⟩ := delimits_leBytes 8 part.length part'.length hpart hpart' _ _ heq
  exact List.append_inj hrest hlength

/-- The hashed string determines the parts. -/
theorem parts_injective
    {parts parts' : List (List UInt8)}
    (h : ∀ part ∈ parts, Hashable part)
    (h' : ∀ part ∈ parts', Hashable part)
    (heq : parts.flatMap hashPart = parts'.flatMap hashPart) :
    parts = parts' := by
  refine delimits_hashPart.flatMap_injective ?_ h h' heq
  intro part _ hnil
  simp [hashPart, leBytes] at hnil

/-- A circuit whose maps are listed in another order has the same parts. -/
theorem CircuitText.parts_eq_of_perm
    {c c' : CircuitText}
    (hfields : c' = { c with
      enabledOps := c'.enabledOps
      exprToWidx := c'.exprToWidx
      nonPrimitiveTraceGenerators := c'.nonPrimitiveTraceGenerators
      tagToWitness := c'.tagToWitness
      tagToOpId := c'.tagToOpId })
    (hops : c.enabledOps.Perm c'.enabledOps)
    (hwidx : c.exprToWidx.Perm c'.exprToWidx)
    (hgenerators : c.nonPrimitiveTraceGenerators.Perm c'.nonPrimitiveTraceGenerators)
    (hwitness : c.tagToWitness.Perm c'.tagToWitness)
    (hopIds : c.tagToOpId.Perm c'.tagToOpId) :
    c.parts = c'.parts := by
  have hsorted : ∀ {l l' : List (List UInt8)}, l.Perm l' → sorted l = sorted l' := by
    intro l l' hperm
    have : Std.Total (fun a b => bytesLe a b = true) := ⟨bytesLe_total⟩
    have : IsTrans (List UInt8) (fun a b => bytesLe a b = true) := ⟨fun _ _ _ => bytesLe_trans⟩
    have : Std.Antisymm (fun a b => bytesLe a b = true) := ⟨fun _ _ => bytesLe_antisymm⟩
    exact insertionSort_eq_iff_perm.mpr hperm
  rw [hfields]
  simp only [CircuitText.parts, hsorted hops, hsorted hwidx, hsorted hgenerators,
    hsorted hwitness, hsorted hopIds]

/--
Two setups have the same identity exactly when they have the same domain, circuits that are
hashed alike, and the same parameters and parent keys in one row, unless the digest collides on
what was hashed.  Where the parameters end and the keys begin is not hashed.
-/
theorem setup_identity_eq_iff
    {domain domain' : List UInt8}
    {circuit circuit' : CircuitText}
    {parameters parameters' : List (List UInt8)}
    {keys keys' : List (Bytes 32)}
    (hcircuits : DigestApart sha256 (circuit.parts.flatMap hashPart)
      (circuit'.parts.flatMap hashPart))
    (hidentities : DigestApart sha256
      ((identityParts domain ((circuitDigest sha256 circuit).toList :: parameters)
        keys).flatMap hashPart)
      ((identityParts domain' ((circuitDigest sha256 circuit').toList :: parameters')
        keys').flatMap hashPart))
    (hparts : ∀ part ∈ circuit.parts ++ domain :: parameters, Hashable part)
    (hparts' : ∀ part ∈ circuit'.parts ++ domain' :: parameters', Hashable part) :
    forCircuit sha256 domain circuit parameters keys =
        forCircuit sha256 domain' circuit' parameters' keys' ↔
      domain = domain' ∧ circuit.parts = circuit'.parts ∧
        parameters ++ keys.map List.Vector.toList =
          parameters' ++ keys'.map List.Vector.toList := by
  have hfits : ∀ {domain : List UInt8} {circuit : CircuitText} {parameters : List (List UInt8)}
      {keys : List (Bytes 32)}, (∀ part ∈ circuit.parts ++ domain :: parameters, Hashable part) →
        ∀ part ∈ identityParts domain ((circuitDigest sha256 circuit).toList :: parameters) keys,
          Hashable part := by
    intro domain circuit parameters keys h part hpart
    have hprefix : ∀ part ∈ identityPrefix, Hashable part := hashable_of_all (by decide +kernel)
    have hbytes : ∀ bytes : Bytes 32, Hashable bytes.toList := by
      intro bytes
      simp [Hashable]
    simp only [identityParts, List.mem_cons, List.mem_append, List.mem_map] at hpart
    rcases hpart with (hpart | rfl | rfl | hpart) | ⟨key, -, rfl⟩
    · exact hprefix part hpart
    · exact h _ (by simp)
    · exact hbytes _
    · exact h _ (by simp [hpart])
    · exact hbytes key
  constructor
  · intro heq
    have hmessages := hidentities heq
    have hrows := parts_injective (hfits hparts) (hfits hparts') hmessages
    simp only [identityParts, identityPrefix, List.cons_append, List.nil_append,
      List.cons.injEq, true_and] at hrows
    obtain ⟨hdomain, hdigest, hrest⟩ := hrows
    have hcircuit := hcircuits (Bytes.ext_toList hdigest)
    refine ⟨hdomain, parts_injective ?_ ?_ hcircuit, hrest⟩
    · exact fun part hpart => hparts part (List.mem_append_left _ hpart)
    · exact fun part hpart => hparts' part (List.mem_append_left _ hpart)
  · rintro ⟨rfl, hcircuit, hrest⟩
    have hdigest : circuitDigest sha256 circuit = circuitDigest sha256 circuit' := by
      rw [circuitDigest, circuitDigest, hcircuit]
    simp only [forCircuit, fromComponents, identityParts, hdigest, List.cons_append,
      List.append_assoc, hrest]

/-- A circuit without operations. -/
def SampleSetups.bare : CircuitText :=
  ⟨[], [], [], [], [], [], [], [], [], [], [], [], none⟩

/-- Setups of the two provers differ, whatever their circuit. -/
theorem SampleSetups.domains_differ :
    forCircuit Sha2.sha256 (Text.lit "base-baby-bear").bytes bare [] [] =
        forCircuit Sha2.sha256 (Text.lit "recursive-baby-bear").bytes bare [] [] ↔
      (Text.lit "base-baby-bear").bytes = (Text.lit "recursive-baby-bear").bytes ∧
        bare.parts = bare.parts ∧
        [] ++ ([] : List (Bytes 32)).map List.Vector.toList =
          [] ++ ([] : List (Bytes 32)).map List.Vector.toList :=
  setup_identity_eq_iff (fun _ => rfl) (fun h => absurd h (by decide +kernel))
    (hashable_of_all (by decide +kernel)) (hashable_of_all (by decide +kernel))

end Identity

end OpenCsv
