import OpenCsv.Cli.SessionReads

/-!
# Runs of a session

A session is created once, and from then on every call of its interface may come in any order,
with any arguments, and between two calls the session may be closed and opened again.  A write
may fail while a frame is ingested.

**Results.** Every call is a chain of few kinds of moves (`Session.moves_of_perform`), and no move
removes or changes what is stored (`Move.keeps`).
-/

namespace OpenCsv

open Call Relation

section Runs

variable {K S R X : Type}
variable (crate : GossipCrate K S R X)
variable (sponge : Sponge)
variable [DecidableEq K] [DecidableEq S] [DecidableEq R]

section Calls

/-- The calls of a session, with their arguments. -/
inductive SessionCall (X : Type) where
  | ingest (io : IngestWrite → WriteOutcome) (wire : List UInt8)
  | reopen
  | refreshVerifiedTip (tip : VerifiedChainTip) (now : UInt64) (maxAge : Duration)
  | reserveLocalInput (operationId : Bytes 32) (outpoint : OutPoint)
  | publish (kind : MessageKind) (payload : List UInt8)
  | publishProposal (payload : List UInt8) (stockKey : X)
  | publishCommitment (payload : List UInt8) (feeKey : X)
  | publishVerifiedCommitment (payload : List UInt8) (feeKey : X)
      (verified : VerifiedCommitmentInputs) (reservation : LocalReservation)
      (now : UInt64) (maxAge : Duration)
  | authorManifest
  | authorReplacement (feerateSatVb : UInt32)
  | signAndPublish (manifestId : Bytes 32) (inputIndex : UInt16) (signingKey : X)
      (verified : VerifiedBatchInputs) (reservation : LocalReservation)
      (now : UInt64) (maxAge : Duration)
  | finalizeLatest
  | finalizeManifest (manifestId : Bytes 32)
  | markPhase (next : ProtocolPhase) (evidence : Text)

/-- The session after a call; a directory that cannot be opened leaves none. -/
def Session.perform (s : Session K X) : SessionCall X → Option (Session K X)
  | .ingest io wire => some (final (ingest crate sponge io wire) s)
  | .reopen => (Session.openRoot crate s.root).toOption
  | .refreshVerifiedTip tip now maxAge => some (final (refreshVerifiedTip tip now maxAge) s)
  | .reserveLocalInput operationId outpoint =>
      some (final (reserveLocalInput operationId outpoint) s)
  | .publish kind payload => some (final (publish crate sponge kind payload) s)
  | .publishProposal payload stockKey =>
      some (final (publishProposal crate sponge payload stockKey) s)
  | .publishCommitment payload feeKey =>
      some (final (publishCommitment crate sponge payload feeKey) s)
  | .publishVerifiedCommitment payload feeKey verified reservation now maxAge =>
      some (final (publishVerifiedCommitment crate sponge payload feeKey verified reservation
        now maxAge) s)
  | .authorManifest => some (final (authorManifest crate sponge) s)
  | .authorReplacement feerate => some (final (authorReplacement crate sponge feerate) s)
  | .signAndPublish manifestId inputIndex signingKey verified reservation now maxAge =>
      some (final (signAndPublish crate sponge manifestId inputIndex signingKey verified
        reservation now maxAge) s)
  | .finalizeLatest => some (final (finalizeLatest crate sponge) s)
  | .finalizeManifest manifestId => some (final (finalizeManifest crate sponge manifestId) s)
  | .markPhase next evidence => some (final (markPhase crate sponge next evidence) s)

/-- The runs of a session. -/
def sessions : System (Session K X) (SessionCall X) where
  init := fun s => ∃ policy relayPolicy identity,
    Session.init crate policy relayPolicy identity = .ok s
  step := fun s call s' => s.perform crate sponge call = some s'

/-- No write of an ingested frame fails. -/
def SessionCall.Undisturbed (call : SessionCall X) : Prop :=
  ∀ io wire, call = .ingest io wire → io = writesDone

/-- The runs without failing writes. -/
def undisturbedSessions : System (Session K X) (SessionCall X) :=
  (sessions crate sponge).restrict (fun _ call => call.Undisturbed)

end Calls

section Moves

/-- The height of the session is moved. -/
def Session.setHeight (s : Session K X) (currentHeight : UInt32) : Session K X :=
  let policy := { s.policy with currentHeight }
  { s with root := { s.root with policy }, policy }

/-- The phase is recorded. -/
def Session.record
    (s : Session K X)
    (phase : ProtocolPhase)
    (evidence : Text) : Session K X :=
  { s with root := { s.root with phase := some (phase, evidence) } }

/-- A reservation is written. -/
def Session.reserve (s : Session K X) (reservation : LocalReservation) : Session K X :=
  { s with root := s.root.putReservation reservation }

/-- A signed transaction is written. -/
def Session.storeSigned
    (s : Session K X)
    (manifestId : Bytes 32)
    (transaction : Transaction) : Session K X :=
  { s with root := { s.root with
    signed := s.root.signed.insert manifestId transaction.serialize } }

/-- What calls do to a session; the writes of ingested frames end in an allowed way. -/
inductive Move
    (allowed : (IngestWrite → WriteOutcome) → Prop) :
    Session K X → Session K X → Prop
  | ingest {s : Session K X} {io : IngestWrite → WriteOutcome} (wire : List UInt8) :
      allowed io → Move allowed s (final (ingest crate sponge io wire) s)
  | reopen {s s' : Session K X} :
      Session.openRoot crate s.root = .ok s' → Move allowed s s'
  | height {s : Session K X} (currentHeight : UInt32) :
      Move allowed s (s.setHeight currentHeight)
  | reserve {s : Session K X} {operationId : Bytes 32} {outpoint : OutPoint} :
      findReservation operationId outpoint (s.root.reservations.listing idNameLe) = .ok none →
        Move allowed s (s.reserve ⟨operationId, outpoint, .committedUnsigned⟩)
  | release {s : Session K X} {reservation : LocalReservation} :
      s.requireReservation reservation reservation.operationId reservation.outpoint = .ok () →
        Move allowed s (s.reserve { reservation with phase := .signatureReleased })
  | finish {s : Session K X} {proposal : Proposal K} {manifest : Manifest K}
      {manifestId : Bytes 32} {transaction : Transaction} {e e' : String} :
      s.requireProposal crate e = .ok proposal →
      s.requireManifest crate sponge proposal manifestId e' = .ok manifest →
      s.root.signed.has manifestId = false →
      s.finishShares crate sponge proposal manifest = .ok transaction →
        Move allowed s (s.storeSigned manifestId transaction)
  | recordSigned {s : Session K X} {status : SessionStatus} (manifestId : Bytes 32) :
      s.status crate sponge = .ok status →
      status.phase ∈
        [.ready, .proposed, .committed, .manifestReady, .signedPersisted] →
        Move allowed s (s.record .signedPersisted (toHex manifestId.toList))
  | record {s : Session K X} {status : SessionStatus} {next : ProtocolPhase}
      (evidence : Text) :
      s.status crate sponge = .ok status →
      allowedTransition crate sponge s status next = .ok true →
        Move allowed s (s.record next evidence)

/-- A chain of moves. -/
abbrev Moves (allowed : (IngestWrite → WriteOutcome) → Prop) :
    Session K X → Session K X → Prop :=
  ReflTransGen (Move crate sponge allowed)

end Moves

section Chains

variable {crate : GossipCrate K S R X}
variable {sponge : Sponge}
variable {allowed : (IngestWrite → WriteOutcome) → Prop}
variable {s s' : Session K X}

theorem leaves_publishFrame
    (hallowed : allowed writesDone)
    (frame : SignedFrame K R) :
    Leaves (publishFrame crate sponge frame) s (Moves crate sponge allowed s) := by
  refine leaves_iff.mpr ?_
  have hfinal : final (publishFrame crate sponge frame) s =
      final (ingest crate sponge writesDone (frame.toWire crate)) s := by
    rw [publishFrame, final, bind_apply, final]
    cases ingest crate sponge writesDone (frame.toWire crate) s <;> rfl
  rw [hfinal]
  exact ReflTransGen.single (.ingest _ hallowed)

theorem leaves_publish
    (hallowed : allowed writesDone)
    (kind : MessageKind)
    (payload : List UInt8) :
    Leaves (publish crate sponge kind payload) s (Moves crate sponge allowed s) := by
  refine leaves_reads .refl (fun frame _ => ?_)
  exact leaves_publishFrame hallowed frame

theorem leaves_publishCommitment
    (hallowed : allowed writesDone)
    (payload : List UInt8)
    (feeKey : X) :
    Leaves (publishCommitment crate sponge payload feeKey) s (Moves crate sponge allowed s) := by
  refine leaves_reads .refl (fun proposal _ => ?_)
  refine leaves_reads .refl (fun frame _ => ?_)
  exact leaves_publishFrame hallowed frame

theorem leaves_authorReplacement
    (hallowed : allowed writesDone)
    (feerate : UInt32) :
    Leaves (authorReplacement crate sponge feerate) s (Moves crate sponge allowed s) := by
  refine leaves_reads .refl (fun proposal _ => ?_)
  refine leaves_reads .refl (fun previous _ => ?_)
  refine leaves_lift .refl (fun replacement _ => ?_)
  exact leaves_publish hallowed _ _

theorem leaves_publishVerifiedCommitment
    (hallowed : allowed writesDone)
    (payload : List UInt8)
    (feeKey : X)
    (verified : VerifiedCommitmentInputs)
    (reservation : LocalReservation)
    (now : UInt64)
    (maxAge : Duration) :
    Leaves (publishVerifiedCommitment crate sponge payload feeKey verified reservation now
      maxAge) s (Moves crate sponge allowed s) := by
  refine leaves_reads .refl (fun proposal _ => ?_)
  refine leaves_lift .refl (fun commitment _ => ?_)
  refine leaves_lift .refl (fun _ _ => ?_)
  refine leaves_reads .refl (fun _ _ => ?_)
  exact leaves_publishCommitment hallowed payload feeKey

theorem leaves_reserveLocalInput
    (operationId : Bytes 32)
    (outpoint : OutPoint) :
    Leaves (reserveLocalInput operationId outpoint) s (Moves crate sponge allowed s) := by
  refine leaves_reads .refl (fun existing hfind => ?_)
  cases existing with
  | some existing => exact leaves_pure .refl
  | none => exact ReflTransGen.single (.reserve hfind)

omit [DecidableEq K] in
/-- A reservation that is stored for the operation and the input, and held. -/
theorem requireReservation_eq_ok_iff
    {supplied : LocalReservation}
    {operationId : Bytes 32}
    {outpoint : OutPoint} :
    s.requireReservation supplied operationId outpoint = .ok () ↔
      supplied.operationId = operationId ∧ supplied.outpoint = outpoint ∧
        s.root.reservations.get operationId = some supplied ∧
        supplied.phase.isReleasable = false := by
  simp only [Session.requireReservation, Session.localReservation, except_bind_eq_ok_iff,
    require_eq_ok_iff, decide_eq_true_eq, okOr_eq_ok_iff, Bool.not_eq_true']
  constructor
  · rintro ⟨_, ⟨hoperation, houtpoint⟩, persisted, hget, _, rfl, hheld⟩
    exact ⟨hoperation, houtpoint, hget, hheld⟩
  · rintro ⟨hoperation, houtpoint, hget, hheld⟩
    exact ⟨(), ⟨hoperation, houtpoint⟩, supplied, hget, (), rfl, hheld⟩

theorem toSignatureReleased_eq_ok_iff
    {phase phase' : ReservationPhase} :
    phase.toSignatureReleased = .ok phase' ↔
      phase.isReleasable = false ∧ phase' = .signatureReleased := by
  cases phase <;> simp [ReservationPhase.toSignatureReleased, ReservationPhase.isReleasable,
    eq_comm]

omit [DecidableEq K] in
/-- A write that is done, and what comes after it. -/
theorem leaves_write
    {α : Type}
    {update : SessionRoot X → SessionRoot X}
    {f : Unit → Call GossipError (Session K X) α}
    {Q : Session K X → Prop}
    (h : Leaves (f ()) { s with root := update s.root } Q) :
    Leaves (atomicWrite .done update >>= f) s Q :=
  leaves_modify h

/-- What comes before a publication is kept by it. -/
theorem leaves_publish_after
    (hallowed : allowed writesDone)
    (hmove : Move crate sponge allowed s s')
    (kind : MessageKind)
    (payload : List UInt8) :
    Leaves (publish crate sponge kind payload) s' (Moves crate sponge allowed s) :=
  Leaves.mono (leaves_publish hallowed kind payload)
    (fun _ hmoves => ReflTransGen.head hmove hmoves)

theorem leaves_signAndPublish
    (hallowed : allowed writesDone)
    (manifestId : Bytes 32)
    (inputIndex : UInt16)
    (signingKey : X)
    (verified : VerifiedBatchInputs)
    (reservation : LocalReservation)
    (now : UInt64)
    (maxAge : Duration) :
    Leaves (signAndPublish crate sponge manifestId inputIndex signingKey verified reservation
      now maxAge) s (Moves crate sponge allowed s) := by
  refine leaves_reads .refl (fun proposal _ => ?_)
  refine leaves_reads .refl (fun manifest _ => ?_)
  refine leaves_lift .refl (fun _ _ => ?_)
  refine leaves_lift .refl (fun signed _ => ?_)
  refine leaves_reads .refl (fun _ hheld => ?_)
  refine leaves_lift .refl (fun phase hphase => ?_)
  obtain ⟨hoperation, houtpoint, -⟩ := requireReservation_eq_ok_iff.mp hheld
  obtain ⟨-, rfl⟩ := toSignatureReleased_eq_ok_iff.mp (mapError_eq_ok_iff.mp hphase)
  rw [← hoperation, ← houtpoint] at hheld ⊢
  have hmove : Move crate sponge allowed s
      (s.reserve { reservation with phase := .signatureReleased }) := .release hheld
  refine leaves_write ?_
  refine leaves_lift (.single hmove) (fun share _ => ?_)
  exact leaves_publish_after hallowed hmove _ _

omit [DecidableEq K] in
theorem leaves_persistPhase
    (phase : ProtocolPhase)
    (evidence : Text) :
    Leaves (persistPhase phase evidence) s (fun s' => s' = s.record phase evidence) := by
  refine leaves_write ?_
  refine leaves_demand rfl (fun _ => ?_)
  exact leaves_pure rfl

theorem leaves_finalizeManifest
    (manifestId : Bytes 32) :
    Leaves (finalizeManifest crate sponge manifestId) s (Moves crate sponge allowed s) := by
  refine leaves_reads .refl (fun proposal hproposal => ?_)
  refine leaves_reads .refl (fun manifest hmanifest => ?_)
  refine leaves_get ?_
  by_cases hsigned : s.root.signed.has manifestId
  · rw [if_pos hsigned]
    exact (ends_reads _).mpr .refl
  · rw [if_neg hsigned]
    refine leaves_reads .refl (fun status _ => ?_)
    refine leaves_demand .refl (fun _ => ?_)
    refine leaves_reads .refl (fun transaction htransaction => ?_)
    have hmove : Move crate sponge allowed s (s.storeSigned manifestId transaction) :=
      .finish hproposal hmanifest (by simpa using hsigned) htransaction
    refine leaves_write ?_
    refine Leaves.bind (P := Moves crate sponge allowed s) ?_ (fun _ h => h) (fun _ _ h => h)
    refine leaves_reads (.single hmove) (fun status hstatus => ?_)
    by_cases hphase : status.phase ∈
        [.ready, .proposed, .committed, .manifestReady, .signedPersisted]
    · rw [if_pos hphase]
      refine Leaves.mono (leaves_persistPhase _ _) ?_
      rintro s' rfl
      exact .tail (.single hmove) (.recordSigned manifestId hstatus hphase)
    · rw [if_neg hphase]
      refine leaves_demand (.single hmove) (fun _ => ?_)
      exact leaves_pure (.single hmove)

theorem leaves_markPhase
    (next : ProtocolPhase)
    (evidence : Text) :
    Leaves (markPhase crate sponge next evidence) s (Moves crate sponge allowed s) := by
  refine leaves_demand .refl (fun _ => ?_)
  refine leaves_reads .refl (fun status hstatus => ?_)
  refine leaves_reads .refl (fun permitted hpermitted => ?_)
  refine leaves_demand .refl (fun htrue => ?_)
  subst htrue
  refine Leaves.mono (leaves_persistPhase _ _) ?_
  rintro s' rfl
  exact .single (.record evidence hstatus hpermitted)

theorem leaves_refreshVerifiedTip
    (tip : VerifiedChainTip)
    (now : UInt64)
    (maxAge : Duration) :
    Leaves (refreshVerifiedTip tip now maxAge) s (Moves crate sponge allowed s) := by
  refine leaves_lift .refl (fun _ _ => ?_)
  refine leaves_get ?_
  refine leaves_demand .refl (fun _ => ?_)
  refine leaves_demand .refl (fun _ => ?_)
  refine leaves_modify ?_
  refine leaves_get ?_
  refine leaves_write ?_
  have hmove : Move crate sponge allowed s (s.setHeight tip.height.toUInt32) := .height _
  refine leaves_demand (.single hmove) (fun _ => ?_)
  exact leaves_pure (.single hmove)

/-- Every call is a chain of moves. -/
theorem Session.moves_of_perform
    {call : SessionCall X}
    (hdone : allowed writesDone)
    (hallowed : ∀ io wire, call = .ingest io wire → allowed io)
    (h : s.perform crate sponge call = some s') :
    Moves crate sponge allowed s s' := by
  cases call with
  | reopen =>
      refine .single (.reopen ?_)
      simp only [perform] at h
      cases hopen : Session.openRoot crate s.root with
      | error e =>
          rw [hopen] at h
          cases h
      | ok s'' =>
          rw [hopen] at h
          rw [Option.some.inj h]
  | ingest io wire =>
      obtain rfl := Option.some.inj h
      exact .single (.ingest wire (hallowed io wire rfl))
  | refreshVerifiedTip tip now maxAge =>
      obtain rfl := Option.some.inj h
      exact leaves_iff.mp (leaves_refreshVerifiedTip tip now maxAge)
  | reserveLocalInput operationId outpoint =>
      obtain rfl := Option.some.inj h
      exact leaves_iff.mp (leaves_reserveLocalInput operationId outpoint)
  | publish kind payload =>
      obtain rfl := Option.some.inj h
      exact leaves_iff.mp (leaves_publish hdone kind payload)
  | publishProposal payload stockKey =>
      obtain rfl := Option.some.inj h
      exact leaves_iff.mp (leaves_reads .refl (fun frame _ => leaves_publishFrame hdone frame))
  | publishCommitment payload feeKey =>
      obtain rfl := Option.some.inj h
      exact leaves_iff.mp (leaves_publishCommitment hdone payload feeKey)
  | publishVerifiedCommitment payload feeKey verified reservation now maxAge =>
      obtain rfl := Option.some.inj h
      exact leaves_iff.mp (leaves_publishVerifiedCommitment hdone payload feeKey verified
        reservation now maxAge)
  | authorManifest =>
      obtain rfl := Option.some.inj h
      refine leaves_iff.mp (leaves_reads .refl (fun proposal _ => ?_))
      exact leaves_reads .refl (fun manifest _ => leaves_publish hdone _ _)
  | authorReplacement feerate =>
      obtain rfl := Option.some.inj h
      exact leaves_iff.mp (leaves_authorReplacement hdone feerate)
  | signAndPublish manifestId inputIndex signingKey verified reservation now maxAge =>
      obtain rfl := Option.some.inj h
      exact leaves_iff.mp (leaves_signAndPublish hdone manifestId inputIndex signingKey verified
        reservation now maxAge)
  | finalizeLatest =>
      obtain rfl := Option.some.inj h
      refine leaves_iff.mp (leaves_reads .refl (fun proposal _ => ?_))
      refine leaves_reads .refl (fun manifests _ => ?_)
      exact leaves_lift .refl (fun manifest _ => leaves_finalizeManifest _)
  | finalizeManifest manifestId =>
      obtain rfl := Option.some.inj h
      exact leaves_iff.mp (leaves_finalizeManifest manifestId)
  | markPhase next evidence =>
      obtain rfl := Option.some.inj h
      exact leaves_iff.mp (leaves_markPhase next evidence)

end Chains

section Keeping

variable {crate : GossipCrate K S R X}
variable {sponge : Sponge}
variable {allowed : (IngestWrite → WriteOutcome) → Prop}
variable {s s' : Session K X}

/-- No move loses anything that is stored. -/
theorem Move.keeps
    (h : Move crate sponge allowed s s') :
    Keeps s s' := by
  cases h with
  | ingest wire hio => exact keeps_ingest _ wire
  | reopen hopen => exact keeps_open hopen
  | height currentHeight =>
      refine ⟨?_, fun _ _ h => h, fun _ _ h => h, fun _ => ⟨rfl, rfl⟩⟩
      intro path bytes h
      cases path <;> exact h
  | reserve hfind =>
      refine ⟨?_, fun _ _ h => h, fun _ _ h => h, fun h => ⟨h, rfl⟩⟩
      intro path bytes h
      cases path <;> exact h
  | release hheld =>
      refine ⟨?_, fun _ _ h => h, fun _ _ h => h, fun h => ⟨h, rfl⟩⟩
      intro path bytes h
      cases path <;> exact h
  | finish hproposal hmanifest hnew hfinish =>
      refine ⟨?_, fun _ _ h => h, fun id bytes h => Table.get_insert_of_get h,
        fun h => ⟨h, rfl⟩⟩
      intro path bytes h
      cases path <;> exact h
  | recordSigned manifestId hstatus hphase =>
      refine ⟨?_, fun _ _ h => h, fun _ _ h => h, fun h => ⟨h, rfl⟩⟩
      intro path bytes h
      cases path <;> exact h
  | record evidence hstatus hallowed =>
      refine ⟨?_, fun _ _ h => h, fun _ _ h => h, fun h => ⟨h, rfl⟩⟩
      intro path bytes h
      cases path <;> exact h

theorem Moves.keeps
    (h : Moves crate sponge allowed s s') :
    Keeps s s' := by
  induction h with
  | refl => exact Keeps.refl s
  | tail _ hmove ih => exact ih.trans hmove.keeps

/-- A run loses nothing that is stored. -/
theorem keeps_later
    (h : (sessions crate sponge).Later s s') :
    Keeps s s' := by
  induction h with
  | refl => exact Keeps.refl s
  | step _ hstep ih =>
      have hmoves : Moves crate sponge (fun _ => True) _ _ :=
        Session.moves_of_perform trivial (fun _ _ _ => trivial) hstep
      exact ih.trans (Moves.keeps hmoves)

/-- The chain in memory is the one in the directory. -/
theorem policy_of_reachable
    (h : (sessions crate sponge).Reachable s) :
    s.policy = s.root.policy := by
  refine @System.Reachable.invariant _ _ _ (fun s => s.policy = s.root.policy) ?_ ?_ s h
  · rintro s ⟨policy, relayPolicy, identity, hinit⟩
    simp only [Session.init, except_bind_eq_ok_iff] at hinit
    obtain ⟨relayPolicy', -, hopen⟩ := hinit
    obtain ⟨-, -, hroot, hpolicy, -⟩ := Session.openRoot_eq_ok_iff.mp hopen
    rw [hpolicy, hroot]
  · intro s call s' hs hstep
    have hmoves : Moves crate sponge (fun _ => True) s s' :=
      Session.moves_of_perform trivial (fun _ _ _ => trivial) hstep
    exact ((Moves.keeps hmoves).policy hs).1

end Keeping

end Runs

namespace SampleSession

open Manifest.Sample

/-- The secret keys of the stock, of two fee inputs, and of three relays. -/
inductive Secret where
  | stock
  | first
  | second
  | ownerRelay
  | firstRelay
  | secondRelay
deriving DecidableEq

def publicKey : Secret → Key
  | .stock => stockKey
  | .first => firstKey
  | .second => secondKey
  | .ownerRelay =>
      Bytes.ofLe 33 0x13cdc4e8ab94fa748475e00e90136ccc04140b9304491e58f3800dc1f1db93e402
  | .firstRelay =>
      Bytes.ofLe 33 0xe4ef40b269d5a8cbb79a61dcbd848be828515c0a25a7b4559320071a4dde8b2f02
  | .secondRelay =>
      Bytes.ofLe 33 0x56752960147a052f8ba168852f47f682d3355235143a4520a4ee5e75d57bf9ff03

/-- Relay signatures of the sample frames: digest, key and DER encoding. -/
def relaySignatures : List (Bytes 32 × Secret × List UInt8) :=
  [ (Bytes.ofLe 32 0x33f7e79b878a016e37b6a97b93fc9b2d6899022b4b5c931aef0556f53506fceb, .stock,
      leBytes 70 0xa3b8e249c9953e96af962a177ca0dff0d56e678e731307844c35c8971bef98492002aec6103d77c9d777928858b38a981d58003a3cbeb4d90f3d970eb846f9a4012020024430),
    (Bytes.ofLe 32 0xbdc55dbfb19a9f8c797dff03a8046c436f73efc36e6df24576b90d77d473f336, .ownerRelay,
      leBytes 71 0x57709e0a82a95a5597f8308d3d05a000d4d92aded70d8d869d03228a299e9a3620022449e0f879e862c3f340f86f491f6160305af0922f8103b1d08eae09bac8bca90021024530),
    (Bytes.ofLe 32 0x05f99b04ef6c7aaa1158db74ec3ca7a4a4ae1b6594c8e0d9078273690e022c4f, .first,
      leBytes 71 0xad05fb82856a8cc8808e8aff84104ec4c5f6d2d73f30e42a04e663d093e969302002a6a58c558f746ba9cc947e996550e22301e4084ebafd7fe7961856c2fb4453c00021024530),
    (Bytes.ofLe 32 0xcb4bc5a9687ae6c7fb81ed2aeb6b05c6d9dd25562b9161fcd33aaf3f1e2f466f, .firstRelay,
      leBytes 71 0x3278d46b37f65f35ec8d3730e087c945318d9f213be7d3470abb065f344b1d312002f7a99eac5a5575d4176b59859b55c1ea0a940469a036173a497b266e4ad5cbda0021024530),
    (Bytes.ofLe 32 0x6f74602cfa3adf92ab775bb79298e9f05f0d11fada61c0033de77ea731b214a2, .second,
      leBytes 70 0xc2c4ad025c49374b0642f49a316ca8ae49112445f960ad96bbc06c9436aafa4e2002c624fc8aad17bd2b0ace19d7c82bdd242e5ae1555e202a9ae68dea17b8e1182020024430),
    (Bytes.ofLe 32 0x76a7e86e7f8f4d7c9d85867cc8469ecdcb74e1de0cb0519dec76e02c1aaf568a, .secondRelay,
      leBytes 70 0xf2578a3b72da4814e58baf43d78753e89697b157210e32d054b9986122f456272002a8fe85af9e39722b51d585d6c11f9257f63155f4c5c219608a927335a687080120024430),
    (Bytes.ofLe 32 0xd0587fb0406c417e472ccc8a94254692ff2af23e9f6d129ce85d8d76f3795127, .ownerRelay,
      leBytes 70 0xc55c2c33e21e5d6686a4cbabd6ff96690023745dea2c66c88aa918d5906c82182002056c4b1850e16f8c158a299b09e1c681c588cc07b8c8756481fb885f3f718d3320024430),
    (Bytes.ofLe 32 0x29e1b26cd9710719d0653e6901ff470c9c9a5d23b210cd9a855d4f911df5cef8, .ownerRelay,
      leBytes 71 0x2ba3690c783a978c6f03bd8da369bb2530d2bde9dc006b9fca8689947c1bd53d2002f99efb6d1e62e7d999a47f16ac7efea1679cf74f01da0de16c66a81236f4b0c10021024530),
    (Bytes.ofLe 32 0xb868780150018b460564e7bf3966e1d3ee174f9b55450193803d697e2fae714e, .ownerRelay,
      leBytes 70 0x738f8633b782899790d3b441bd5953178b657ebbf071605a45855daee9e0e40c2002b069c8e345906021f3aff173b4067cf834798c60d7fba4a3780f1a120185dc2d20024430),
    (Bytes.ofLe 32 0xde3b144730414cdc604747c45600190abc0d25ab3e5ea1d96f2ed234c91ed4d9, .ownerRelay,
      leBytes 70 0x1b7f3c2bb374476feaafb6c0daf4e8ff36bf37b156269c35c20e907a15783c0d20028223de39f067bd750a87d41050ba7f235a66a1aab9f54f83ee1f973f996ab24f20024430),
    (Bytes.ofLe 32 0x539cea3f1e1bf3a69b15d9120ba296561948ddfa1a294c26b0a3966c7d9eb939, .firstRelay,
      leBytes 71 0x4fa874b2777b2d2661c9a97d337430c51624743b35a0b4978b028fa38d698048200296b616504a6a9e23174d2f1d0a72995826224e5c2e53d30ab4e4f2af646aa39e0021024530),
    (Bytes.ofLe 32 0x32e00b089136726a3612a86ec0eb95229049721f9eb21c3f7a6d10644a0b2b60, .secondRelay,
      leBytes 71 0xd8569a67e2753aeb68f593b8de8867fa8cb5c1799e50c6f8d27b0cf0bf3f5b0a200288bfb770d2fb0681c7ec31541468af014ecdf6747108204112b63154455b47db0021024530) ]

/-- The signature digest of input 0 in the replacement of the sample transaction. -/
def replacementDigest : Bytes 32 :=
  Bytes.ofLe 32 0x2cce07447328d9d6906b9445e3d775b7855217d81b0fb5996230c49f8f76ad45

/-- Signatures of the stock input in the sample transaction and in its replacement. -/
def releasedSignature : Signature :=
  ⟨leBytes 71 0x0122ba06e818dc98b8ef0c9912ef408ebf6a7d592ec928e5294afcde1aa2135d062002b6f77f11bdf1178862c583f9b7d23d79e9d91a5009accca78e82746957dbd67720024430, by
    rw [leBytes_length]; decide⟩

def replacementSignature : Signature :=
  ⟨leBytes 72 0x01d37e930b6e94cc230defe07e51e1d9b929b4d12a51f446c5d957392263399e4020023032ef01c6687d567a34fabd3a25f069aeb7a2b1c04fa0c46462e9c4759f3fb70021024530, by
    rw [leBytes_length]; decide⟩

/-- The signatures of the stock key, by digest. -/
def stockSignatures : List (Bytes 32 × Signature) :=
  [(digests.getD 0 (Bytes.zero 32), releasedSignature), (replacementDigest, replacementSignature)]

/-- The Bitcoin library on the keys, frames and signatures of the sample. -/
def crate : GossipCrate Key Signature (List UInt8) Secret where
  toBitcoinCrate :=
    { Manifest.Sample.crate with
      p2wshSignatureHash := fun tx _ _ _ =>
        .ok (if tx = manifest.unsignedTx then digests.getD 0 (Bytes.zero 32)
          else replacementDigest)
      verifyEcdsa := fun digest signature key =>
        if key = stockKey ∧ (digest, signature) ∈ stockSignatures then .ok ()
        else Manifest.Sample.crate.verifyEcdsa digest signature key }
  serializeDer := id
  fromDer := .ok
  normalizeS := id
  verifyRelay := fun digest signature key =>
    if relaySignatures.any (fun row =>
        row.1 == digest && publicKey row.2.1 == key && row.2.2 == signature) then .ok ()
    else .error (Text.lit "signature failed verification")
  signRelay := fun digest secret =>
    ((relaySignatures.find? (fun row => row.1 == digest && row.2.1 == secret)).map
      (fun row => row.2.2)).getD []
  publicKey := publicKey
  signInput := fun digest _ => (stockSignatures.lookup digest).getD stockSignature

/-- A frame with signatures of the table. -/
def frameOf
    (kind : MessageKind)
    (payload : List UInt8)
    (identity : Secret)
    (origin : Option ℕ)
    (signature : ℕ) : SignedFrame Key (List UInt8) where
  kind
  sender := publicKey identity
  payload
  originSignature := origin.bind (fun i => relaySignatures[i]?.map (fun row => row.2.2))
  signature := (relaySignatures[signature]?.map (fun row => row.2.2)).getD []

def proposalFrame : SignedFrame Key (List UInt8) :=
  frameOf .proposal (proposal.wireBytes crate.toBitcoinCrate) .ownerRelay (some 0) 1

def firstFrame : SignedFrame Key (List UInt8) :=
  frameOf .commitment (first.wireBytes crate.toBitcoinCrate) .firstRelay (some 2) 3

def secondFrame : SignedFrame Key (List UInt8) :=
  frameOf .commitment (second.wireBytes crate.toBitcoinCrate) .secondRelay (some 4) 5

/-- The session of the stock owner, before any frame. -/
def fresh : Session Key Secret where
  root := SessionRoot.create ⟨proposal.chainId, 100⟩ RelayPolicy.default .ownerRelay
  policy := ⟨proposal.chainId, 100⟩
  relayPolicy := RelayPolicy.default
  identity := .ownerRelay
  commitments := []
  commitmentSenders := ∅
  storedFrameBytes := 0

theorem init_fresh :
    Session.init crate ⟨proposal.chainId, 100⟩ RelayPolicy.default .ownerRelay = .ok fresh :=
  rfl

/-- The session after the proposal. -/
def proposed : Session Key Secret :=
  fresh.accept crate proposalFrame (.proposal proposal) (proposalFrame.toWire crate)

/-- The session after the second commitment. -/
def committed : Session Key Secret :=
  proposed.accept crate secondFrame (.commitment second) (secondFrame.toWire crate)

theorem arrival_proposal :
    fresh.arrival crate foldSponge (proposalFrame.toWire crate) =
      .ok (some (proposalFrame, .proposal proposal)) := by
  decide +kernel

theorem arrival_second :
    proposed.arrival crate foldSponge (secondFrame.toWire crate) =
      .ok (some (secondFrame, .commitment second)) := by
  decide +kernel

/-- A frame with a new object, on a run without failing writes. -/
theorem step_of_arrival
    {s : Session Key Secret}
    {frame : SignedFrame Key (List UInt8)}
    {object : SemanticObject Key Signature}
    {wire : List UInt8}
    (h : s.arrival crate foldSponge wire = .ok (some (frame, object))) :
    (undisturbedSessions crate foldSponge).step s (.ingest writesDone wire)
      (s.accept crate frame object wire) := by
  refine ⟨?_, ?_⟩
  · show some (final (ingest crate foldSponge writesDone wire) s) = _
    unfold final
    rw [ingest_done, h]
  · rintro io wire' heq
    exact (SessionCall.ingest.inj heq).1.symm

theorem reachable_proposed :
    (undisturbedSessions crate foldSponge).Reachable proposed :=
  .step (.init ⟨_, _, _, init_fresh⟩) (step_of_arrival arrival_proposal)

theorem reachable_committed :
    (undisturbedSessions crate foldSponge).Reachable committed :=
  .step reachable_proposed (step_of_arrival arrival_second)

end SampleSession

end OpenCsv
