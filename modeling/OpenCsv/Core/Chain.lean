import Mathlib.Data.List.Sort
import OpenCsv.Core.Coin
import OpenCsv.Lib.System

/-!
# The anchor chain seam and the in-memory chain

`AnchorChain` is what acceptance asks of the base chain: existence, context and
canonical location of an anchor, the record its proof was authored against, and
the first occurrence of a raw nullifier.

`MockAnchorChain` is the append-only log of the tests.  Its two operations are
the steps of `MockAnchorChain.system`; the position of an entry counts the
earlier entries of its block, so entries of a log of at most `2 ^ 32` entries
never share a location (`Reachable.location_injective`).
-/

namespace OpenCsv

/-- What acceptance observes of the base chain. -/
structure AnchorChain where
  tipHeight : UInt64
  anchorAt : AnchorRef → Option AnchorRecord
  proofRecordAt : AnchorRef → List Digest → Option AnchorRecord
  ctxAt : AnchorRef → Option Ctx
  locate : AnchorRef → Option AnchorLocation
  firstNullifierOccurrence : Digest → Option AnchorLocation
  nullifierOccurrences : Digest → List AnchorLocation
  anchorsUpTo : UInt64 → List (AnchorLocation × AnchorRecord)
  confirmationsAt : UInt64 → UInt64

namespace AnchorChain

/-- The default `proof_record_at`: batch headers are refused. -/
def soloProofRecord : Option AnchorRecord → Option AnchorRecord
  | some (.batchHeader ..) => none
  | record => record

/-- The default `confirmations_at`. -/
def depthBelow (tipHeight height : UInt64) : UInt64 :=
  if height > tipHeight then 0 else tipHeight - height + 1

end AnchorChain

/-- `u64::saturating_add`. -/
def saturatingAdd (a b : UInt64) : UInt64 :=
  if a.toNat + b.toNat < 2 ^ 64 then a + b else 0xFFFFFFFFFFFFFFFF

/-- The kernel's occurrence scan: the first index whose record binds `rawNf`. -/
def firstOccurrence
    (sponge : Sponge)
    (entries : List (AnchorRecord × Ctx))
    (rawNf : Digest) : Option ℕ :=
  entries.findIdx? (fun e => e.1.wellFormed sponge e.2 rawNf)

/-- One entry of the in-memory log. -/
structure MockEntry where
  txid : Bytes 32
  location : AnchorLocation
  record : AnchorRecord
  ctx : Ctx
deriving DecidableEq

/-- The in-memory append-only chain. -/
structure MockAnchorChain where
  tipHeight : UInt64
  entries : List MockEntry
deriving DecidableEq

namespace MockAnchorChain

/-- An empty chain with tip at height 0. -/
def new : MockAnchorChain where
  tipHeight := 0
  entries := []

/-- Advance the tip by `n` blocks. -/
def advanceBlocks (c : MockAnchorChain) (n : UInt64) : MockAnchorChain :=
  { c with tipHeight := saturatingAdd c.tipHeight n }

/-- The entry an append creates. -/
def nextEntry
    (sponge : Sponge)
    (c : MockAnchorChain)
    (record : AnchorRecord)
    (ctx : Ctx) : MockEntry where
  txid := (hashFelts sponge "mock-txid"
    [[felt (UInt32.ofNat c.entries.length)]]).bytes
  location :=
    { height := c.tipHeight
      position := UInt32.ofNat
        (c.entries.filter (fun e => e.location.height == c.tipHeight)).length }
  record := record
  ctx := ctx

/-- Append a record to the tip block under a given context. -/
def appendWithCtx
    (sponge : Sponge)
    (c : MockAnchorChain)
    (record : AnchorRecord)
    (ctx : Ctx) : MockAnchorChain × AnchorRef :=
  let entry := nextEntry sponge c record ctx
  ({ c with entries := c.entries ++ [entry] }, ⟨entry.txid, entry.location⟩)

/-- The entry at the referenced location with the referenced transaction id. -/
def find (c : MockAnchorChain) (ref : AnchorRef) : Option MockEntry :=
  c.entries.find? (fun e => e.location == ref.location && e.txid == ref.txid)

/-- The first occurrence, by the kernel's scan over the entries in log order. -/
def firstNullifierOccurrence
    (sponge : Sponge)
    (c : MockAnchorChain)
    (rawNf : Digest) : Option AnchorLocation :=
  (firstOccurrence sponge (c.entries.map (fun e => (e.record, e.ctx))) rawNf).bind
    (fun index => c.entries[index]?.map MockEntry.location)

/-- The chain view of the in-memory log. -/
def toAnchorChain (sponge : Sponge) (c : MockAnchorChain) : AnchorChain where
  tipHeight := c.tipHeight
  anchorAt := fun ref => (c.find ref).map MockEntry.record
  proofRecordAt := fun ref _ =>
    AnchorChain.soloProofRecord ((c.find ref).map MockEntry.record)
  ctxAt := fun ref => (c.find ref).map MockEntry.ctx
  locate := fun ref => (c.find ref).map (fun _ => ref.location)
  firstNullifierOccurrence := c.firstNullifierOccurrence sponge
  nullifierOccurrences := fun rawNf =>
    ((c.entries.filter (fun e => e.record.wellFormed sponge e.ctx rawNf)).map
      MockEntry.location).insertionSort (fun a b => a.le b = true)
  anchorsUpTo := fun height =>
    ((c.entries.filter (fun e => e.location.height ≤ height)).map
      (fun e => (e.location, e.record))).insertionSort (fun a b => a.1.le b.1 = true)
  confirmationsAt := AnchorChain.depthBelow c.tipHeight

/-- The operations of the chain; `append` is `appendWithCtx` at a random context. -/
inductive Op where
  | appendWithCtx (record : AnchorRecord) (ctx : Ctx)
  | advanceBlocks (n : UInt64)

/-- One operation. -/
def apply (sponge : Sponge) (c : MockAnchorChain) : Op → MockAnchorChain
  | .appendWithCtx record ctx => (c.appendWithCtx sponge record ctx).1
  | .advanceBlocks n => c.advanceBlocks n

/-- The chain as a system: it starts empty and takes one operation per step. -/
def system (sponge : Sponge) : System MockAnchorChain Op where
  init := fun c => c = new
  step := fun c op c' => c' = c.apply sponge op

/-- Chains built by any sequence of the operations. -/
def Reachable (sponge : Sponge) (c : MockAnchorChain) : Prop :=
  (system sponge).Reachable c

theorem Reachable.ofNew
    (sponge : Sponge) :
    Reachable sponge MockAnchorChain.new :=
  System.Reachable.init rfl

theorem Reachable.ofApply
    {sponge : Sponge}
    {c : MockAnchorChain}
    (h : Reachable sponge c)
    (op : Op) :
    Reachable sponge (c.apply sponge op) :=
  System.Reachable.step h rfl

/-- The kernel's index resolves to the first entry that binds the nullifier. -/
theorem firstNullifierOccurrence_eq
    (sponge : Sponge)
    (c : MockAnchorChain)
    (rawNf : Digest) :
    c.firstNullifierOccurrence sponge rawNf =
      (c.entries.find? (fun e => e.record.wellFormed sponge e.ctx rawNf)).map
        MockEntry.location := by
  rw [firstNullifierOccurrence, firstOccurrence]
  generalize c.entries = entries
  induction entries with
  | nil =>
      rfl
  | cons e es ih =>
      rw [List.map_cons, List.findIdx?_cons, List.find?_cons]
      by_cases hwf : e.record.wellFormed sponge e.ctx rawNf = true
      · simp [hwf]
      · simp only [hwf, Bool.false_eq_true, if_false]
        rw [← ih]
        simp [Option.bind_map, Function.comp_def]

/-- Occurrence queries depend on the field elements of the nullifier only. -/
theorem firstNullifierOccurrence_congr
    (sponge : Sponge)
    (c : MockAnchorChain)
    {nf nf' : Digest}
    (h : nf.toElems = nf'.toElems) :
    c.firstNullifierOccurrence sponge nf = c.firstNullifierOccurrence sponge nf' := by
  have hwf : (fun e : MockEntry => e.record.wellFormed sponge e.ctx nf) =
      (fun e : MockEntry => e.record.wellFormed sponge e.ctx nf') := by
    funext e
    exact AnchorRecord.wellFormed_congr sponge e.record h
  rw [firstNullifierOccurrence_eq, firstNullifierOccurrence_eq, hwf]

section Locations

/-- Every position counts the earlier entries of the same block. -/
def PositionsCount (c : MockAnchorChain) : Prop :=
  ∀ (j : ℕ) (e : MockEntry), c.entries[j]? = some e →
    e.location.position = UInt32.ofNat
      ((c.entries.take j).filter (fun e' => e'.location.height == e.location.height)).length

theorem positionsCount_apply
    (sponge : Sponge)
    (c : MockAnchorChain)
    (op : Op)
    (h : PositionsCount c) :
    PositionsCount (c.apply sponge op) := by
  cases op with
  | advanceBlocks n =>
      exact h
  | appendWithCtx record ctx =>
      intro j e hj
      simp only [apply, appendWithCtx] at hj ⊢
      rcases Nat.lt_or_ge j c.entries.length with hlt | hge
      · rw [List.getElem?_append_left hlt] at hj
        rw [List.take_append_of_le_length hlt.le]
        exact h j e hj
      · -- The new entry sits at the end, after all the entries it counts.
        obtain rfl : j = c.entries.length := by
          have hlt : j < (c.entries ++ [nextEntry sponge c record ctx]).length :=
            (List.getElem?_eq_some_iff.mp hj).1
          simp only [List.length_append, List.length_singleton] at hlt
          omega
        rw [List.getElem?_concat_length, Option.some.injEq] at hj
        rw [List.take_left, ← hj]
        rfl

theorem Reachable.positionsCount
    {sponge : Sponge}
    {c : MockAnchorChain}
    (h : Reachable sponge c) :
    PositionsCount c := by
  apply System.Reachable.invariant _ _ h
  · rintro _ rfl
    intro j e hj
    simp [new] at hj
  · rintro c op _ hc rfl
    exact positionsCount_apply sponge c op hc

/-- In a log of at most `2 ^ 32` entries a location names one entry. -/
theorem Reachable.location_injective
    {sponge : Sponge}
    {c : MockAnchorChain}
    (h : Reachable sponge c)
    (hlen : c.entries.length ≤ 2 ^ 32)
    {i j : ℕ}
    {e e' : MockEntry}
    (hi : c.entries[i]? = some e)
    (hj : c.entries[j]? = some e')
    (hloc : e.location = e'.location) :
    i = j := by
  have hcount := h.positionsCount
  -- An earlier entry of the block is counted by every later one.
  have key : ∀ {i j : ℕ} {e e' : MockEntry}, c.entries[i]? = some e →
      c.entries[j]? = some e' → e.location = e'.location → ¬ i < j := by
    intro i j e e' hi hj hloc hij
    have hilt : i < c.entries.length := (List.getElem?_eq_some_iff.mp hi).1
    have hjlt : j < c.entries.length := (List.getElem?_eq_some_iff.mp hj).1
    have hpos : e.location.position = e'.location.position := by rw [hloc]
    rw [hcount i e hi, hcount j e' hj, hloc] at hpos
    set p : MockEntry → Bool := fun x => x.location.height == e'.location.height with hp
    have hle : ∀ k, k < c.entries.length → ((c.entries.take k).filter p).length < 2 ^ 32 := by
      intro k hk
      have := List.length_filter_le p (c.entries.take k)
      rw [List.length_take] at this
      omega
    have heq : ((c.entries.take i).filter p).length = ((c.entries.take j).filter p).length := by
      have hnat := congrArg UInt32.toNat hpos
      rw [UInt32.toNat_ofNat', UInt32.toNat_ofNat',
        Nat.mod_eq_of_lt (hle i hilt), Nat.mod_eq_of_lt (hle j hjlt)] at hnat
      exact hnat
    have hgrow : ((c.entries.take (i + 1)).filter p).length =
        ((c.entries.take i).filter p).length + 1 := by
      have hget : c.entries[i] = e := (List.getElem?_eq_some_iff.mp hi).2
      rw [List.take_succ_eq_append_getElem hilt, List.filter_append, hget,
        List.length_append]
      simp [hp, hloc]
    have hmono : ((c.entries.take (i + 1)).filter p).length ≤
        ((c.entries.take j).filter p).length := by
      apply List.Sublist.length_le
      apply List.Sublist.filter
      exact (List.take_prefix_take_left hij).sublist
    omega
  rcases Nat.lt_trichotomy i j with hlt | heq | hgt
  · exact absurd hlt (key hi hj hloc)
  · exact heq
  · exact absurd hgt (key hj hi hloc.symm)

/-- Entries stand in the order of their blocks, up to the tip. -/
def HeightsOrdered (c : MockAnchorChain) : Prop :=
  c.entries.Pairwise (fun e e' => e.location.height ≤ e'.location.height) ∧
    ∀ e ∈ c.entries, e.location.height ≤ c.tipHeight

theorem le_saturatingAdd
    (a b : UInt64) :
    a ≤ saturatingAdd a b := by
  have ha := a.toNat_lt
  have hmax : (0xFFFFFFFFFFFFFFFF : UInt64).toNat = 2 ^ 64 - 1 := by
    decide
  rw [UInt64.le_iff_toNat_le, saturatingAdd]
  split_ifs with hsum
  · rw [UInt64.toNat_add, Nat.mod_eq_of_lt hsum]
    omega
  · rw [hmax]
    omega

theorem heightsOrdered_apply
    (sponge : Sponge)
    (c : MockAnchorChain)
    (op : Op)
    (h : HeightsOrdered c) :
    HeightsOrdered (c.apply sponge op) := by
  cases op with
  | advanceBlocks n =>
      refine ⟨h.1, ?_⟩
      intro e he
      exact UInt64.le_trans (h.2 e he) (le_saturatingAdd c.tipHeight n)
  | appendWithCtx record ctx =>
      refine ⟨?_, ?_⟩
      · refine List.pairwise_append.mpr ⟨h.1, List.pairwise_singleton _ _, ?_⟩
        intro e he e' he'
        obtain rfl := List.mem_singleton.mp he'
        exact h.2 e he
      · intro e he
        rcases List.mem_append.mp he with he | he
        · exact h.2 e he
        · obtain rfl := List.mem_singleton.mp he
          exact UInt64.le_refl _

theorem Reachable.heightsOrdered
    {sponge : Sponge}
    {c : MockAnchorChain}
    (h : Reachable sponge c) :
    HeightsOrdered c := by
  refine System.Reachable.invariant ?_ ?_ h
  · rintro _ rfl
    exact ⟨List.Pairwise.nil, nofun⟩
  · rintro c op _ hc rfl
    exact heightsOrdered_apply sponge c op hc

/-- In a log of at most `2 ^ 32` entries the locations follow the order of the log. -/
theorem Reachable.location_le
    {sponge : Sponge}
    {c : MockAnchorChain}
    (h : Reachable sponge c)
    (hlen : c.entries.length ≤ 2 ^ 32)
    {i j : ℕ}
    {e e' : MockEntry}
    (hi : c.entries[i]? = some e)
    (hj : c.entries[j]? = some e')
    (hij : i ≤ j) :
    e.location.le e'.location = true := by
  rcases Nat.eq_or_lt_of_le hij with rfl | hlt
  · obtain rfl := Option.some.inj (hi.symm.trans hj)
    exact AnchorLocation.le_iff_key_le.mpr (le_refl _)
  · obtain ⟨hilt, rfl⟩ := List.getElem?_eq_some_iff.mp hi
    obtain ⟨hjlt, rfl⟩ := List.getElem?_eq_some_iff.mp hj
    have hheight := List.pairwise_iff_getElem.mp h.heightsOrdered.1 i j hilt hjlt hlt
    rw [AnchorLocation.le, Bool.or_eq_true, Bool.and_eq_true, decide_eq_true_iff, beq_iff_eq,
      decide_eq_true_iff]
    by_cases hsame : c.entries[i].location.height = c.entries[j].location.height
    · refine Or.inr ⟨hsame, ?_⟩
      rw [h.positionsCount i _ hi, h.positionsCount j _ hj, hsame, UInt32.le_iff_toNat_le,
        UInt32.toNat_ofNat', UInt32.toNat_ofNat']
      set p : MockEntry → Bool :=
        fun x => x.location.height == c.entries[j].location.height with hp
      have hmono : ((c.entries.take i).filter p).length ≤
          ((c.entries.take j).filter p).length :=
        ((List.take_prefix_take_left hij).sublist.filter p).length_le
      have hbound : ((c.entries.take j).filter p).length < 2 ^ 32 := by
        have hfilter := List.length_filter_le p (c.entries.take j)
        rw [List.length_take] at hfilter
        omega
      rw [Nat.mod_eq_of_lt (by omega), Nat.mod_eq_of_lt hbound]
      exact hmono
    · refine Or.inl ?_
      rw [UInt64.lt_iff_toNat_lt]
      rw [UInt64.le_iff_toNat_le] at hheight
      have hne : c.entries[i].location.height.toNat ≠ c.entries[j].location.height.toNat :=
        fun heq => hsame (UInt64.toNat_inj.mp heq)
      omega

end Locations

end MockAnchorChain

end OpenCsv
