import OpenCsv.Cbf.Client

/-!
# Verification of an outpoint

A client is asked whether an output with a value and a script was created in some block
from a birth height on and is unspent at its tip.  It asks the filter of each block for the
script, fetches the blocks that match and goes through their transactions in order, with
the height of the creation so far as its state.

**Results.** `Client.outpointFrom_unspent_iff`: the answer is that the output is unspent
exactly if it was created in a block that was fetched, and no transaction of these blocks
spends it or creates another output in its place.
-/

namespace OpenCsv

/-- What is known of an expected output. -/
inductive OutpointVerdict where
  | unspent (creationHeight checkedThrough matchedBlocks : UInt64)
  | spent (creationHeight spendHeight : UInt64) (spendingTxid : Bytes 32)
  | notFound (checkedFrom checkedThrough : UInt64)
  | outputMismatch (creationHeight : UInt64)
deriving DecidableEq

/-- What a block says about an expected output. -/
inductive OutpointBlockObservation where
  | goOn
  | spent (creationHeight : UInt64) (spendingTxid : Bytes 32)
  | outputMismatch
  | spendBeforeCreation
deriving DecidableEq

/-- The output that a caller expects. -/
structure ExpectedOutput where
  outpoint : OutPoint
  value : UInt64
  script : List UInt8
deriving DecidableEq

section Inspection

variable (sha256 : Sha256)
variable (expected : ExpectedOutput)

/-- Does a transaction have the expected output in its place? -/
def Transaction.hasOutput (tx : Transaction) : Bool :=
  match tx.outputs[expected.outpoint.vout.toNat]? with
  | some output => output.value = expected.value ∧ output.scriptPubkey = expected.script
  | none => false

/-- Does a transaction spend the outpoint? -/
def Transaction.spends (tx : Transaction) : Bool :=
  tx.inputs.any (fun input => input.prev = expected.outpoint)

/-- Go through transactions in order; the creation height is read and written. -/
def inspectTransactions (height : UInt64) : Option UInt64 → List Transaction →
    OutpointBlockObservation × Option UInt64
  | creationHeight, [] => (.goOn, creationHeight)
  | creationHeight, tx :: txs =>
      let creates := tx.txid sha256 = expected.outpoint.txid
      if creates ∧ tx.hasOutput expected = false then (.outputMismatch, creationHeight)
      else
        let creationHeight := if creates then some height else creationHeight
        if tx.spends expected then
          match creationHeight with
          | some created => (.spent created (tx.txid sha256), creationHeight)
          | none => (.spendBeforeCreation, creationHeight)
        else inspectTransactions height creationHeight txs

def inspectOutpointBlock (block : Block) (height : UInt64) (creationHeight : Option UInt64) :
    OutpointBlockObservation × Option UInt64 :=
  inspectTransactions sha256 expected height creationHeight block.txs

end Inspection

namespace Client

section Verification

variable (profile : Profile)
variable (sha256 : Sha256)
variable (client : Client)
variable (world : World)
variable (expected : ExpectedOutput)

/-- The block of a height, checked against its header. -/
def verifiedBlock (height : UInt64) : Except (Stop CbfError) Block := do
  let blockHash ← okOr (client.chain.hashAt height) .panic
  let block ← fetchBlock sha256 client world blockHash
  let root ← okOr (block.computeMerkleRoot sha256) .panic
  require (root = block.header.merkleRoot) (.error (.consensus
    (Text.lit "block " ++ hashToRpc blockHash ++
      Text.lit " merkle root does not match its header")))
  return block

/-- The scan over the heights that are left; there are too few to overflow the counter. -/
def outpointFrom (birth tip : UInt64) : List UInt64 → (creationHeight : Option UInt64) →
    (matchedBlocks : UInt64) → Except (Stop CbfError) OutpointVerdict
  | [], some creationHeight, matchedBlocks => .ok (.unspent creationHeight tip matchedBlocks)
  | [], none, _ => .ok (.notFound birth tip)
  | height :: heights, creationHeight, matchedBlocks => do
      let found ← filterMatches profile sha256 client world height expected.script
      match found with
      | false => outpointFrom birth tip heights creationHeight matchedBlocks
      | true => do
          let block ← verifiedBlock sha256 client world height
          match inspectOutpointBlock sha256 expected block height creationHeight with
          | (.goOn, creationHeight) =>
              outpointFrom birth tip heights creationHeight (matchedBlocks + 1)
          | (.outputMismatch, _) => .ok (.outputMismatch height)
          | (.spendBeforeCreation, _) => .ok (.notFound birth height)
          | (.spent creationHeight spendingTxid, _) =>
              .ok (.spent creationHeight height spendingTxid)

/-- The heights `birth..=tip`. -/
def heightsBetween (birth tip : UInt64) : List UInt64 :=
  (List.range (tip.toNat + 1 - birth.toNat)).map (fun i => UInt64.ofNat (birth.toNat + i))

/-- Verify that an expected output exists and is unspent at the tip. -/
def verifyOutpointUnspent (birthHeight maxBlocks : UInt64) :
    Except (Stop CbfError) OutpointVerdict := do
  require (birthHeight ≠ 0) (.error (.invalidInput
    (Text.lit "outpoint birth height cannot be the mempool sentinel")))
  let tip ← okOr client.chain.tipHeight .panic
  require (birthHeight ≤ tip) (.error (.invalidInput
    (Text.lit "outpoint birth height " ++ Text.ofNat birthHeight.toNat ++
      Text.lit " is above verified tip " ++ Text.ofNat tip.toNat)))
  let blockCount := tip - birthHeight + 1
  require (¬ (maxBlocks = 0 ∨ blockCount > maxBlocks)) (.error (.invalidInput
    (Text.lit "outpoint revalidation window of " ++ Text.ofNat blockCount.toNat ++
      Text.lit " blocks exceeds limit " ++ Text.ofNat maxBlocks.toNat)))
  outpointFrom profile sha256 client world expected birthHeight tip
    (heightsBetween birthHeight tip) none 0

end Verification

end Client

section Inspecting

variable {sha256 : Sha256}
variable {expected : ExpectedOutput}
variable {height : UInt64}

/-- A transaction that neither spends the outpoint nor creates another output in its place. -/
def Transaction.Quiet (sha256 : Sha256) (expected : ExpectedOutput) (tx : Transaction) : Prop :=
  (tx.txid sha256 = expected.outpoint.txid → tx.hasOutput expected = true) ∧
    tx.spends expected = false

/-- One of the transactions creates the output. -/
def Creates (sha256 : Sha256) (expected : ExpectedOutput) (txs : List Transaction) : Prop :=
  ∃ tx ∈ txs, tx.txid sha256 = expected.outpoint.txid

theorem creates_cons
    {tx : Transaction}
    {txs : List Transaction} :
    Creates sha256 expected (tx :: txs) ↔
      tx.txid sha256 = expected.outpoint.txid ∨ Creates sha256 expected txs := by
  simp [Creates]

theorem creates_append
    {txs txs' : List Transaction} :
    Creates sha256 expected (txs ++ txs') ↔
      Creates sha256 expected txs ∨ Creates sha256 expected txs' := by
  simp [Creates, or_and_right, exists_or]

/-- Quiet transactions leave the height of the last creation. -/
theorem inspectTransactions_quiet
    {txs : List Transaction}
    (h : ∀ tx ∈ txs, tx.Quiet sha256 expected)
    (creationHeight : Option UInt64) :
    ∃ creationHeight',
      inspectTransactions sha256 expected height creationHeight txs = (.goOn, creationHeight') ∧
        (creationHeight'.isSome = true ↔
          creationHeight.isSome = true ∨ Creates sha256 expected txs) := by
  induction txs generalizing creationHeight with
  | nil =>
      refine ⟨creationHeight, rfl, (or_iff_left ?_).symm⟩
      rintro ⟨tx, hmem, -⟩
      cases hmem
  | cons tx txs ih =>
      obtain ⟨⟨houtput, hspends⟩, htxs⟩ := List.forall_mem_cons.mp h
      by_cases hcreates : tx.txid sha256 = expected.outpoint.txid
      · obtain ⟨creationHeight', hrest, hcreated⟩ := ih htxs (some height)
        have hmatch : ¬ (tx.txid sha256 = expected.outpoint.txid ∧
            tx.hasOutput expected = false) := by
          rintro ⟨-, hnone⟩
          rw [houtput hcreates] at hnone
          cases hnone
        refine ⟨creationHeight', ?_, ?_⟩
        · rw [inspectTransactions, if_neg hmatch, if_pos hcreates, hspends]
          exact hrest
        · exact iff_of_true (hcreated.mpr (Or.inl rfl)) (Or.inr (creates_cons.mpr (Or.inl hcreates)))
      · obtain ⟨creationHeight', hrest, hcreated⟩ := ih htxs creationHeight
        refine ⟨creationHeight', ?_, ?_⟩
        · rw [inspectTransactions, if_neg (fun hboth => hcreates hboth.1), if_neg hcreates, hspends]
          exact hrest
        · rw [hcreated, creates_cons, or_iff_right hcreates]

/-- A transaction that is not quiet ends the scan. -/
theorem inspectTransactions_loud
    {txs : List Transaction}
    (h : ¬ ∀ tx ∈ txs, tx.Quiet sha256 expected)
    (creationHeight : Option UInt64) :
    (inspectTransactions sha256 expected height creationHeight txs).1 ≠ .goOn := by
  induction txs generalizing creationHeight with
  | nil =>
      exact absurd (fun tx hmem => absurd hmem List.not_mem_nil) h
  | cons tx txs ih =>
      rw [inspectTransactions]
      split
      · exact nofun
      · rename_i hmatch
        by_cases hspends : tx.spends expected = true
        · rw [if_pos hspends]
          split <;> exact nofun
        · rw [if_neg hspends]
          refine ih (fun htxs => h (List.forall_mem_cons.mpr ⟨⟨?_, ?_⟩, htxs⟩)) _
          · intro hcreates
            by_contra hnone
            exact hmatch ⟨hcreates, Bool.eq_false_iff.mpr hnone⟩
          · exact Bool.eq_false_iff.mpr hspends

end Inspecting

namespace Client

section Scanning

variable {profile : Profile}
variable {sha256 : Sha256}
variable {client : Client}
variable {world : World}
variable {expected : ExpectedOutput}
variable {birth tip : UInt64}
variable {blocks : List Block}

/-- Queries about the heights are answered: by their filters, and for a match by the block. -/
def AnswersAt (profile : Profile) (sha256 : Sha256) (client : Client) (world : World)
    (script : List UInt8) (blocks : List Block) (found : UInt64 → Bool) (height : UInt64) : Prop :=
  filterMatches profile sha256 client world height script = .ok (found height) ∧
    (found height = true → ∃ block, blocks[height.toNat]? = some block ∧
      verifiedBlock sha256 client world height = .ok block)

/-- The transactions of the blocks whose filters match. -/
def matchedTxs (blocks : List Block) (found : UInt64 → Bool) (heights : List UInt64) :
    List Transaction :=
  heights.flatMap (fun height =>
    if found height then (blocks[height.toNat]?.map Block.txs).getD [] else [])

/-- A block that matches is fetched and looked through. -/
theorem outpointFrom_found
    {height : UInt64}
    {heights : List UInt64}
    {block : Block}
    (hfilter : filterMatches profile sha256 client world height expected.script = .ok true)
    (hblock : verifiedBlock sha256 client world height = .ok block)
    (creationHeight : Option UInt64)
    (matchedBlocks : UInt64) :
    outpointFrom profile sha256 client world expected birth tip (height :: heights) creationHeight
        matchedBlocks =
      match inspectOutpointBlock sha256 expected block height creationHeight with
      | (.goOn, creationHeight) =>
          outpointFrom profile sha256 client world expected birth tip heights creationHeight
            (matchedBlocks + 1)
      | (.outputMismatch, _) => .ok (.outputMismatch height)
      | (.spendBeforeCreation, _) => .ok (.notFound birth height)
      | (.spent creationHeight spendingTxid, _) =>
          .ok (.spent creationHeight height spendingTxid) := by
  rw [outpointFrom, hfilter]
  show (verifiedBlock sha256 client world height >>= fun block => _) = _
  rw [hblock]
  rfl

/-- When a scan ends with an unspent output. -/
theorem outpointFrom_unspent_iff
    {found : UInt64 → Bool}
    {heights : List UInt64}
    (h : ∀ height ∈ heights,
      AnswersAt profile sha256 client world expected.script blocks found height)
    (creationHeight : Option UInt64)
    (matchedBlocks : UInt64) :
    (∃ created through matched, outpointFrom profile sha256 client world expected birth tip heights
        creationHeight matchedBlocks = .ok (.unspent created through matched)) ↔
      (∀ tx ∈ matchedTxs blocks found heights, tx.Quiet sha256 expected) ∧
        (creationHeight.isSome = true ∨
          Creates sha256 expected (matchedTxs blocks found heights)) := by
  induction heights generalizing creationHeight matchedBlocks with
  | nil =>
      have hnone : ¬ Creates sha256 expected (matchedTxs blocks found []) := by
        rintro ⟨tx, hmem, -⟩
        cases hmem
      have hquiet : ∀ tx ∈ matchedTxs blocks found [], tx.Quiet sha256 expected :=
        fun tx hmem => absurd hmem List.not_mem_nil
      cases creationHeight with
      | none =>
          refine iff_of_false ?_ ?_
          · rintro ⟨created, through, matched, hverdict⟩
            cases hverdict
          · rintro ⟨-, hsome | hcreates⟩
            · cases hsome
            · exact hnone hcreates
      | some created =>
          exact iff_of_true ⟨created, tip, matchedBlocks, rfl⟩ ⟨hquiet, Or.inl rfl⟩
  | cons height heights ih =>
      obtain ⟨⟨hfilter, hblock⟩, hheights⟩ := List.forall_mem_cons.mp h
      cases hfound : found height with
      | false =>
          rw [hfound] at hfilter
          rw [outpointFrom, hfilter]
          have htxs : matchedTxs blocks found (height :: heights) =
              matchedTxs blocks found heights := by
            simp [matchedTxs, hfound]
          rw [htxs]
          exact ih hheights creationHeight matchedBlocks
      | true =>
          obtain ⟨block, hget, hverified⟩ := hblock hfound
          have htxs : matchedTxs blocks found (height :: heights) =
              block.txs ++ matchedTxs blocks found heights := by
            simp [matchedTxs, hfound, hget]
          rw [hfound] at hfilter
          rw [outpointFrom_found hfilter hverified, htxs, List.forall_mem_append, creates_append,
            inspectOutpointBlock]
          by_cases hquiet : ∀ tx ∈ block.txs, tx.Quiet sha256 expected
          · obtain ⟨creationHeight', hinspect, hcreated⟩ :=
              inspectTransactions_quiet hquiet creationHeight
            rw [hinspect, and_iff_right hquiet, ← or_assoc, ← hcreated]
            exact ih hheights creationHeight' (matchedBlocks + 1)
          · have hloud := @inspectTransactions_loud _ _ height _ hquiet creationHeight
            refine iff_of_false ?_ (fun hall => hquiet hall.1.1)
            rintro ⟨created, through, matched, hverdict⟩
            split at hverdict
            · rename_i hinspect
              rw [hinspect] at hloud
              exact hloud rfl
            · cases hverdict
            · cases hverdict
            · cases hverdict

end Scanning

end Client

end OpenCsv
