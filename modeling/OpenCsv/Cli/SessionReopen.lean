import OpenCsv.Cli.SessionSafety
import OpenCsv.Lib.Alike

/-!
# A restart is invisible

Opening the directory of a session lists its commitments in the order of their file names, while
a session that was not closed keeps them in the order of their arrival.  Nothing that a session
does depends on that order.

**Result.** From any session and from the session that opening its directory gives, every
sequence of calls answers the same, and the status at its end is the same (`restart_invisible`).
-/

namespace OpenCsv

open Call

variable {K S R X : Type}

section Reads

variable {crate : GossipCrate K S R X}
variable {sponge : Sponge}
variable [DecidableEq K] [DecidableEq R]
variable {s : Session K X}
variable {pool : List (ParticipantCommitment K)}

/-- The session with its commitments in another order. -/
def Session.withPool
    (s : Session K X)
    (pool : List (ParticipantCommitment K)) : Session K X :=
  { s with commitments := pool }

namespace Session.Valid

variable (h : s.Valid crate sponge)
variable (hperm : pool.Perm s.commitments)

include h hperm

/-- Both orders find the same commitment under an identifier. -/
theorem find?_withPool
    (id : Bytes 32) :
    pool.find? (fun c => c.commitmentId crate.toBitcoinCrate == id) =
      s.commitments.find? (fun c => c.commitmentId crate.toBitcoinCrate == id) := by
  have hnodup :
      (s.commitments.map (ParticipantCommitment.commitmentId crate.toBitcoinCrate)).Nodup := by
    rcases h.files with huntouched | ⟨proposal, frames, manifests, shares, hstarted⟩
    · rw [huntouched.pool]
      exact List.nodup_nil
    · exact hstarted.nodup_commitmentIds
  have hnodup' : (pool.map (ParticipantCommitment.commitmentId crate.toBitcoinCrate)).Nodup :=
    (hperm.map _).nodup_iff.mpr hnodup
  cases hfind : pool.find? (fun c => c.commitmentId crate.toBitcoinCrate == id) with
  | some c => exact (Manifest.PoolExtends.of_perm hperm hnodup' id c hfind).symm
  | none =>
      cases hfind' : s.commitments.find?
          (fun c => c.commitmentId crate.toBitcoinCrate == id) with
      | none => rfl
      | some c =>
          have hsome := Manifest.PoolExtends.of_perm hperm.symm hnodup id c hfind'
          rw [hfind] at hsome
          cases hsome

theorem fromWirePool_withPool
    (proposal : Proposal K)
    (wire : List UInt8) :
    Manifest.fromWirePool crate.toBitcoinCrate sponge proposal pool wire =
      Manifest.fromWirePool crate.toBitcoinCrate sponge proposal s.commitments wire :=
  Manifest.fromWirePool_congr (h.find?_withPool hperm) proposal wire

theorem loadManifests_withPool
    (proposal : Option (Proposal K)) :
    (s.withPool pool).loadManifests crate sponge proposal pool =
      s.loadManifests crate sponge proposal s.commitments := by
  cases proposal with
  | none => rfl
  | some proposal =>
      have hread : readManifest crate sponge proposal pool =
          readManifest crate sponge proposal s.commitments := by
        funext file
        simp only [readManifest, h.fromWirePool_withPool hperm]
      simp only [Session.loadManifests, Session.withPool, hread]

theorem requireManifest_withPool
    (proposal : Proposal K)
    (manifestId : Bytes 32)
    (message : String) :
    (s.withPool pool).requireManifest crate sponge proposal manifestId message =
      s.requireManifest crate sponge proposal manifestId message := by
  have hload := h.loadManifests_withPool hperm (some proposal)
  simp only [Session.requireManifest, Session.loadCommitments]
  exact congrArg (· >>= _) hload

theorem latestManifest_withPool :
    (s.withPool pool).latestManifest crate sponge = s.latestManifest crate sponge := by
  have hproposal : (s.withPool pool).proposal crate = s.proposal crate := rfl
  simp only [Session.latestManifest, Session.loadCommitments, hproposal]
  congr 1
  funext proposal
  exact congrArg (· >>= _) (h.loadManifests_withPool hperm (some proposal))

omit h in
omit [DecidableEq K] [DecidableEq R] in
theorem indexed_withPool
    (c : ParticipantCommitment K) :
    (s.withPool pool).indexed crate c = s.indexed crate c :=
  hperm.any_eq

omit h in
omit [DecidableEq R] in
theorem admitCommitment_withPool
    (proposal : Proposal K)
    (c : ParticipantCommitment K)
    (sender : K) :
    (s.withPool pool).admitCommitment crate proposal c sender =
      s.admitCommitment crate proposal c sender := by
  have hindexed : (s.withPool pool).indexed crate c = s.indexed crate c := hperm.any_eq
  have hlength : (s.withPool pool).commitments.length = s.commitments.length := hperm.length_eq
  have hclash : (s.withPool pool).commitments.any (fun existing => existing.clashes c) =
      s.commitments.any (fun existing => existing.clashes c) := hperm.any_eq
  have hlimits : (s.withPool pool).relayPolicy = s.relayPolicy := rfl
  have hsenders : (s.withPool pool).commitmentSenders = s.commitmentSenders := rfl
  simp only [Session.admitCommitment, hindexed, hlength, hlimits, hsenders, hclash]

theorem enforceFramePolicy_withPool
    (frame : SignedFrame K R)
    (wireLen : ℕ) :
    (s.withPool pool).enforceFramePolicy crate sponge frame wireLen =
      s.enforceFramePolicy crate sponge frame wireLen := by
  have hquota : (s.withPool pool).requireFrameQuota wireLen = s.requireFrameQuota wireLen := rfl
  have hpool : (s.withPool pool).commitments = pool := rfl
  have hload : (s.withPool pool).loadProposal crate = s.loadProposal crate := rfl
  have hrequire : ∀ e, (s.withPool pool).requireProposal crate e = s.requireProposal crate e :=
    fun _ => rfl
  have hlimits : (s.withPool pool).relayPolicy = s.relayPolicy := rfl
  simp only [Session.enforceFramePolicy, hquota, hload, hrequire, hpool, hlimits,
    h.fromWirePool_withPool hperm, admitCommitment_withPool hperm]

theorem validateSemantic_withPool
    (frame : SignedFrame K R) :
    (s.withPool pool).validateSemantic crate sponge frame =
      s.validateSemantic crate sponge frame := by
  have hpolicy : (s.withPool pool).policy = s.policy := rfl
  have hpool : (s.withPool pool).commitments = pool := rfl
  have hrequire : ∀ e, (s.withPool pool).requireProposal crate e = s.requireProposal crate e :=
    fun _ => rfl
  simp only [Session.validateSemantic, Session.loadCommitments, hrequire, hpool, hpolicy,
    h.fromWirePool_withPool hperm, h.loadManifests_withPool hperm]

theorem arrival_withPool
    (wire : List UInt8) :
    (s.withPool pool).arrival crate sponge wire = s.arrival crate sponge wire := by
  have horigin : ∀ frame : SignedFrame K R,
      (s.withPool pool).verifyOriginAuthorization crate frame =
        s.verifyOriginAuthorization crate frame := fun _ => rfl
  have hopen : (s.withPool pool).requireOpen = s.requireOpen := rfl
  have hroot : (s.withPool pool).root = s.root := rfl
  simp only [Session.arrival, Session.admission, horigin, hopen, hroot,
    h.enforceFramePolicy_withPool hperm, h.validateSemantic_withPool hperm]

theorem status_withPool :
    (s.withPool pool).status crate sponge = s.status crate sponge := by
  have hload : (s.withPool pool).loadProposal crate = s.loadProposal crate := rfl
  have hshares : ∀ m p, (s.withPool pool).loadSignatures crate sponge m p =
      s.loadSignatures crate sponge m p := fun _ _ => rfl
  have hphase : (s.withPool pool).loadPhase = s.loadPhase := rfl
  have hempty : (s.withPool pool).commitments.isEmpty = s.commitments.isEmpty := by
    show pool.isEmpty = _
    rw [Bool.eq_iff_iff, List.isEmpty_iff, List.isEmpty_iff]
    exact ⟨fun hnil => (hnil ▸ hperm).nil_eq.symm, fun hnil => (hnil ▸ hperm).eq_nil⟩
  have hderived : ∀ p latest, (s.withPool pool).derivedPhase crate p latest
      ((s.withPool pool).loadCommitments p) =
        s.derivedPhase crate p latest (s.loadCommitments p) := by
    intro p latest
    rcases p with _ | p
    · rfl
    · rcases latest with _ | latest
      · show (if (s.withPool pool).commitments.isEmpty = true then ProtocolPhase.proposed
            else .committed) =
          if s.commitments.isEmpty = true then ProtocolPhase.proposed else .committed
        rw [hempty]
      · rfl
  have hcount : ∀ p, ((s.withPool pool).loadCommitments p).length =
      (s.loadCommitments p).length := by
    intro p
    rcases p with _ | p
    · rfl
    · exact hperm.length_eq
  have hmanifests : ∀ p, (s.withPool pool).loadManifests crate sponge p
      ((s.withPool pool).loadCommitments p) =
        s.loadManifests crate sponge p (s.loadCommitments p) := by
    intro p
    rcases p with _ | p
    · rfl
    · exact h.loadManifests_withPool hperm (some p)
  simp only [Session.status, hload, hmanifests, hshares, hphase, hderived, hcount]

end Session.Valid

end Reads

section Twins

variable (crate : GossipCrate K S R X)
variable (sponge : Sponge)
variable [DecidableEq K] [DecidableEq R]

/-- A session, and the same session with its commitments in another order. -/
inductive Session.Twin (s : Session K X) : Session K X → Prop
  | mk {pool : List (ParticipantCommitment K)} :
      s.Valid crate sponge → pool.Perm s.commitments → s.Twin (s.withPool pool)

variable {crate : GossipCrate K S R X}
variable {sponge : Sponge}
variable {s t : Session K X}

theorem Session.Valid.twin_of_reopens
    (h : s.Valid crate sponge)
    (hreopens : s.Reopens t) :
    s.Twin crate sponge t := by
  have heq : t = s.withPool t.commitments := by
    cases s
    cases t
    obtain ⟨rfl, rfl, rfl, rfl, -, rfl, rfl⟩ := hreopens
    rfl
  rw [heq]
  exact .mk h hreopens.commitments

/-- A change that leaves the objects alone. -/
theorem Session.Twin.of_sameObjects
    (h : s.Twin crate sponge t)
    (update : Session K X → Session K X)
    (hsettings : s.SameSettings (update s))
    (hobjects : s.SameObjects (update s))
    (hpool : ∀ pool, update (s.withPool pool) = (update s).withPool pool) :
    (update s).Twin crate sponge (update t) := by
  cases h with
  | @mk pool hvalid hperm =>
      rw [hpool]
      refine .mk (hvalid.of_sameSettings hsettings (hvalid.files_of_sameObjects hobjects)) ?_
      rwa [hobjects.pool]

omit [DecidableEq K] [DecidableEq R] in
/-- A frame with a new object enters both sessions alike. -/
theorem Session.accept_withPool
    {frame : SignedFrame K R}
    {object : SemanticObject K S}
    {wire : List UInt8}
    {pool : List (ParticipantCommitment K)}
    (hperm : pool.Perm s.commitments) :
    ∃ pool', (s.withPool pool).accept crate frame object wire =
        (s.accept crate frame object wire).withPool pool' ∧
      pool'.Perm (s.accept crate frame object wire).commitments := by
  cases object with
  | commitment c =>
      have hindexed : (s.withPool pool).indexed crate c = s.indexed crate c :=
        Session.Valid.indexed_withPool hperm c
      cases hnew : s.indexed crate c with
      | false =>
          rw [Session.accept_commitment hnew, Session.accept_commitment (hindexed.trans hnew)]
          exact ⟨pool ++ [c], rfl, hperm.append_right [c]⟩
      | true =>
          have hstored : (s.store crate (.commitment c : SemanticObject K S)
              frame.payload).indexed crate c = true := hnew
          have hstored' : ((s.withPool pool).store crate (.commitment c : SemanticObject K S)
              frame.payload).indexed crate c = true := hindexed.trans hnew
          simp only [accept, remember, hstored, hstored', if_true]
          exact ⟨pool, rfl, hperm⟩
  | _ => exact ⟨pool, rfl, hperm⟩

/-- Ingesting a frame does the same in both sessions. -/
theorem alike_ingest
    (h : s.Twin crate sponge t)
    (wire : List UInt8) :
    Alike (Session.Twin crate sponge) (ingest crate sponge writesDone wire) s
      (ingest crate sponge writesDone wire) t := by
  cases h with
  | @mk pool hvalid hperm =>
  unfold Alike answer final
  rw [ingest_done, ingest_done, hvalid.arrival_withPool hperm]
  cases harrival : s.arrival crate sponge wire with
  | error e => exact ⟨rfl, .mk hvalid hperm⟩
  | ok brought =>
      rcases brought with _ | ⟨frame, object⟩
      · exact ⟨rfl, .mk hvalid hperm⟩
      · have htwin : ∃ pool', (s.withPool pool).accept crate frame object wire =
            (s.accept crate frame object wire).withPool pool' ∧
              pool'.Perm (s.accept crate frame object wire).commitments :=
          Session.accept_withPool hperm
        obtain ⟨pool', haccept, hperm'⟩ := htwin
        simp only [haccept]
        exact ⟨trivial, .mk (hvalid.accept harrival) hperm'⟩

section Questions

theorem Session.Twin.requireManifest
    (h : s.Twin crate sponge t)
    (proposal : Proposal K)
    (manifestId : Bytes 32)
    (message : String) :
    s.requireManifest crate sponge proposal manifestId message =
      t.requireManifest crate sponge proposal manifestId message := by
  cases h with
  | mk hvalid hperm => exact (hvalid.requireManifest_withPool hperm _ _ _).symm

theorem Session.Twin.status
    (h : s.Twin crate sponge t) :
    s.status crate sponge = t.status crate sponge := by
  cases h with
  | mk hvalid hperm => exact (hvalid.status_withPool hperm).symm

theorem Session.Twin.loadManifests
    (h : s.Twin crate sponge t)
    (proposal : Proposal K) :
    s.loadManifests crate sponge (some proposal) (s.loadCommitments (some proposal)) =
      t.loadManifests crate sponge (some proposal) (t.loadCommitments (some proposal)) := by
  cases h with
  | mk hvalid hperm => exact (hvalid.loadManifests_withPool hperm (some proposal)).symm

/-- What is not the index is the same. -/
theorem Session.Twin.fields
    (h : s.Twin crate sponge t) :
    t.root = s.root ∧ t.policy = s.policy ∧ t.identity = s.identity := by
  cases h with
  | mk hvalid hperm => exact ⟨rfl, rfl, rfl⟩

theorem Session.Twin.loadProposal
    (h : s.Twin crate sponge t) :
    s.loadProposal crate = t.loadProposal crate := by
  obtain ⟨hroot, hpolicy, -⟩ := h.fields
  simp only [Session.loadProposal, hroot, hpolicy]

theorem Session.Twin.requireProposal
    (h : s.Twin crate sponge t)
    (message : String) :
    s.requireProposal crate message = t.requireProposal crate message := by
  simp only [Session.requireProposal, h.loadProposal]

theorem Session.Twin.loadSignatures
    (h : s.Twin crate sponge t)
    (manifest : Manifest K)
    (proposal : Proposal K) :
    s.loadSignatures crate sponge manifest proposal =
      t.loadSignatures crate sponge manifest proposal := by
  simp only [Session.loadSignatures, h.fields.1]

theorem Session.Twin.anySignatureShare
    (h : s.Twin crate sponge t)
    (proposal : Proposal K)
    (manifests : List (Manifest K)) :
    s.anySignatureShare crate sponge proposal manifests =
      t.anySignatureShare crate sponge proposal manifests := by
  induction manifests with
  | nil => rfl
  | cons m manifests ih =>
      simp only [Session.anySignatureShare, h.loadSignatures, ih]

theorem Session.Twin.allowedTransition
    (h : s.Twin crate sponge t)
    (status : SessionStatus)
    (next : ProtocolPhase) :
    allowedTransition crate sponge s status next =
      OpenCsv.allowedTransition crate sponge t status next := by
  have hany : s.hasAnySignatureShare crate sponge = t.hasAnySignatureShare crate sponge := by
    simp only [Session.hasAnySignatureShare, h.loadProposal, h.loadManifests,
      h.anySignatureShare]
  cases next <;> simp only [OpenCsv.allowedTransition, hany]

theorem Session.Twin.requireReservation
    (h : s.Twin crate sponge t)
    (supplied : LocalReservation)
    (operationId : Bytes 32)
    (outpoint : OutPoint) :
    s.requireReservation supplied operationId outpoint =
      t.requireReservation supplied operationId outpoint := by
  simp only [Session.requireReservation, Session.localReservation, h.fields.1]

theorem Session.Twin.latestManifest
    (h : s.Twin crate sponge t) :
    s.latestManifest crate sponge = t.latestManifest crate sponge := by
  cases h with
  | mk hvalid hperm => exact (hvalid.latestManifest_withPool hperm).symm

/-- The initial manifest does not depend on the order of the commitments. -/
theorem Session.Twin.build
    (h : s.Twin crate sponge t)
    {proposal : Proposal K}
    (hproposal : s.proposal crate = .ok proposal) :
    Manifest.build crate.toBitcoinCrate sponge proposal s.commitments =
      Manifest.build crate.toBitcoinCrate sponge proposal t.commitments := by
  cases h with
  | @mk pool hvalid hperm =>
  rcases hvalid.files with huntouched | ⟨p, frames, manifests, shares, hstarted⟩
  · have hnil := huntouched.pool
    have hnil' : (s.withPool pool).commitments = [] := (hnil ▸ hperm).eq_nil
    rw [hnil, hnil']
  · obtain rfl := hstarted.eq_of_loadProposal (Session.requireProposal_eq_ok_iff.mp hproposal)
    refine Manifest.buildAt_congr_of_perm hperm.symm ?_ ?_
    · rw [List.Nodup, List.pairwise_map]
      refine hstarted.sound.distinct.imp (fun {a b} hclash hsame => ?_)
      simp [ParticipantCommitment.clashes, hsame] at hclash
    · intro c hc
      obtain ⟨bytes, -, hread⟩ := hstarted.sound.committed.get_of_mem hc
      have hparse := (readBounded_eq_ok_iff.mp hread).2
      simp only [ParticipantCommitment.fromWire, except_bind_eq_ok_iff, pure, Except.pure,
        Except.ok.injEq] at hparse
      obtain ⟨_, -, _, -, ⟨⟩, hvalidated, _, -, rfl⟩ := hparse
      exact hvalidated

variable [DecidableEq S]

theorem Session.Twin.finishShares
    (h : s.Twin crate sponge t)
    (proposal : Proposal K)
    (manifest : Manifest K) :
    s.finishShares crate sponge proposal manifest =
      t.finishShares crate sponge proposal manifest := by
  simp only [Session.finishShares, h.loadSignatures]

theorem Session.Twin.signedTransaction
    (h : s.Twin crate sponge t)
    (manifestId : Bytes 32) :
    s.signedTransaction crate sponge manifestId = t.signedTransaction crate sponge manifestId := by
  simp only [Session.signedTransaction, h.requireProposal, h.requireManifest, h.finishShares,
    h.fields.1]

end Questions

section Writes

omit [DecidableEq K] [DecidableEq R] in
theorem alike_write
    {α : Type}
    {Q : Session K X → Session K X → Prop}
    {update update' : SessionRoot X → SessionRoot X}
    {f g : Unit → Call GossipError (Session K X) α}
    (h : Alike Q (f ()) { s with root := update s.root } (g ())
      { t with root := update' t.root }) :
    Alike Q (atomicWrite .done update >>= f) s (atomicWrite .done update' >>= g) t :=
  alike_modify h

theorem Session.Twin.reserve
    (h : s.Twin crate sponge t)
    (reservation : LocalReservation) :
    (s.reserve reservation).Twin crate sponge (t.reserve reservation) :=
  h.of_sameObjects (fun s => s.reserve reservation) ⟨rfl, rfl, rfl, rfl, rfl, rfl⟩
    ⟨rfl, rfl, rfl, rfl, rfl, rfl, rfl, rfl, rfl⟩ (fun _ => rfl)

theorem Session.Twin.record
    (h : s.Twin crate sponge t)
    (phase : ProtocolPhase)
    (evidence : Text) :
    (s.record phase evidence).Twin crate sponge (t.record phase evidence) :=
  h.of_sameObjects (fun s => s.record phase evidence) ⟨rfl, rfl, rfl, rfl, rfl, rfl⟩
    ⟨rfl, rfl, rfl, rfl, rfl, rfl, rfl, rfl, rfl⟩ (fun _ => rfl)

theorem Session.Twin.storeSigned
    (h : s.Twin crate sponge t)
    (manifestId : Bytes 32)
    (transaction : Transaction) :
    (s.storeSigned manifestId transaction).Twin crate sponge
      (t.storeSigned manifestId transaction) :=
  h.of_sameObjects (fun s => s.storeSigned manifestId transaction) ⟨rfl, rfl, rfl, rfl, rfl, rfl⟩
    ⟨rfl, rfl, rfl, rfl, rfl, rfl, rfl, rfl, rfl⟩ (fun _ => rfl)

theorem Session.Twin.setHeight
    (h : s.Twin crate sponge t)
    (height : UInt32) :
    (s.setHeight height).Twin crate sponge (t.setHeight height) := by
  cases h with
  | @mk pool hvalid hperm =>
      have hobjects : s.SameObjects (s.setHeight height) :=
        ⟨rfl, rfl, rfl, rfl, rfl, rfl, rfl, rfl, rfl⟩
      have hvalid' : (s.setHeight height).Valid crate sponge :=
        ⟨rfl, hvalid.relayPolicy, hvalid.limits, hvalid.identity,
          hvalid.files_of_sameObjects hobjects⟩
      exact .mk hvalid' hperm

omit [DecidableEq K] [DecidableEq R] in
theorem alike_appendEvent
    {Q : Session K X → Session K X → Prop}
    (h : Q s t)
    (event : Text) :
    Alike Q (appendEvent .done event) s (appendEvent .done event) t :=
  alike_demand_bind h rfl (fun _ => alike_pure h ())

theorem alike_persistPhase
    (h : s.Twin crate sponge t)
    (phase : ProtocolPhase)
    (evidence : Text) :
    Alike (Session.Twin crate sponge) (persistPhase phase evidence) s
      (persistPhase phase evidence) t :=
  alike_write (alike_appendEvent (h.record phase evidence) _)

end Writes

section Calls

theorem alike_publishFrame
    (h : s.Twin crate sponge t)
    (frame : SignedFrame K R) :
    Alike (Session.Twin crate sponge) (publishFrame crate sponge frame) s
      (publishFrame crate sponge frame) t :=
  (alike_ingest h _).bind (fun _ _ _ _ _ hlater => alike_pure hlater _)

theorem alike_publish
    (h : s.Twin crate sponge t)
    (kind : MessageKind)
    (payload : List UInt8) :
    Alike (Session.Twin crate sponge) (publish crate sponge kind payload) s
      (publish crate sponge kind payload) t := by
  refine alike_reads_bind h ?_ (fun frame _ => alike_publishFrame h frame)
  rw [h.fields.2.2]

theorem alike_publishProposal
    (h : s.Twin crate sponge t)
    (payload : List UInt8)
    (stockKey : X) :
    Alike (Session.Twin crate sponge) (publishProposal crate sponge payload stockKey) s
      (publishProposal crate sponge payload stockKey) t := by
  refine alike_reads_bind h ?_ (fun frame _ => alike_publishFrame h frame)
  rw [h.fields.2.2]

theorem alike_publishCommitment
    (h : s.Twin crate sponge t)
    (payload : List UInt8)
    (feeKey : X) :
    Alike (Session.Twin crate sponge) (publishCommitment crate sponge payload feeKey) s
      (publishCommitment crate sponge payload feeKey) t := by
  refine alike_reads_bind h (h.requireProposal _) (fun proposal _ => ?_)
  refine alike_reads_bind h ?_ (fun frame _ => alike_publishFrame h frame)
  rw [h.fields.2.2]

theorem alike_publishVerifiedCommitment
    (h : s.Twin crate sponge t)
    (payload : List UInt8)
    (feeKey : X)
    (verified : VerifiedCommitmentInputs)
    (reservation : LocalReservation)
    (now : UInt64)
    (maxAge : Duration) :
    Alike (Session.Twin crate sponge)
      (publishVerifiedCommitment crate sponge payload feeKey verified reservation now maxAge) s
      (publishVerifiedCommitment crate sponge payload feeKey verified reservation now maxAge)
        t := by
  refine alike_reads_bind h (h.requireProposal _) (fun proposal _ => ?_)
  refine alike_lift_bind h (fun commitment _ => ?_)
  refine alike_lift_bind h (fun _ _ => ?_)
  refine alike_reads_bind h (h.requireReservation _ _ _) (fun _ _ => ?_)
  exact alike_publishCommitment h payload feeKey

theorem alike_authorManifest
    (h : s.Twin crate sponge t) :
    Alike (Session.Twin crate sponge) (authorManifest crate sponge) s
      (authorManifest crate sponge) t := by
  refine alike_reads_bind h (h.requireProposal _) (fun proposal hproposal => ?_)
  refine alike_reads_bind h ?_ (fun manifest _ => alike_publish h _ _)
  rw [h.build hproposal]

theorem alike_authorReplacement
    (h : s.Twin crate sponge t)
    (feerate : UInt32) :
    Alike (Session.Twin crate sponge) (authorReplacement crate sponge feerate) s
      (authorReplacement crate sponge feerate) t := by
  refine alike_reads_bind h (h.requireProposal _) (fun proposal _ => ?_)
  refine alike_reads_bind h h.latestManifest (fun previous _ => ?_)
  refine alike_lift_bind h (fun replacement _ => ?_)
  exact alike_publish h _ _

theorem alike_signAndPublish
    (h : s.Twin crate sponge t)
    (manifestId : Bytes 32)
    (inputIndex : UInt16)
    (signingKey : X)
    (verified : VerifiedBatchInputs)
    (reservation : LocalReservation)
    (now : UInt64)
    (maxAge : Duration) :
    Alike (Session.Twin crate sponge)
      (signAndPublish crate sponge manifestId inputIndex signingKey verified reservation now
        maxAge) s
      (signAndPublish crate sponge manifestId inputIndex signingKey verified reservation now
        maxAge) t := by
  refine alike_reads_bind h (h.requireProposal _) (fun proposal _ => ?_)
  refine alike_reads_bind h (h.requireManifest _ _ _) (fun manifest _ => ?_)
  refine alike_lift_bind h (fun _ _ => ?_)
  refine alike_lift_bind h (fun signed _ => ?_)
  refine alike_reads_bind h (h.requireReservation _ _ _) (fun _ _ => ?_)
  refine alike_lift_bind h (fun phase _ => ?_)
  refine alike_write ?_
  have hreserved := h.reserve ⟨signed.operationId, signed.outpoint, phase⟩
  refine alike_lift_bind hreserved (fun share _ => ?_)
  exact alike_publish hreserved _ _

theorem alike_reserveLocalInput
    (h : s.Twin crate sponge t)
    (operationId : Bytes 32)
    (outpoint : OutPoint) :
    Alike (Session.Twin crate sponge) (reserveLocalInput operationId outpoint) s
      (reserveLocalInput operationId outpoint) t := by
  refine alike_reads_bind h ?_ (fun existing _ => ?_)
  · rw [h.fields.1]
  · cases existing with
    | some existing => exact alike_pure h existing
    | none => exact alike_write (alike_pure (h.reserve _) _)

theorem alike_refreshVerifiedTip
    (h : s.Twin crate sponge t)
    (tip : VerifiedChainTip)
    (now : UInt64)
    (maxAge : Duration) :
    Alike (Session.Twin crate sponge) (refreshVerifiedTip tip now maxAge) s
      (refreshVerifiedTip tip now maxAge) t := by
  refine alike_lift_bind h (fun _ _ => ?_)
  refine alike_get ?_
  rw [h.fields.2.1]
  refine alike_demand_bind h rfl (fun _ => ?_)
  refine alike_demand_bind h rfl (fun _ => ?_)
  refine alike_modify (alike_get (alike_write ?_))
  exact alike_appendEvent (h.setHeight tip.height.toUInt32) _

theorem alike_markSigned
    (h : s.Twin crate sponge t)
    (manifestId : Bytes 32) :
    Alike (Session.Twin crate sponge) (markSigned crate sponge manifestId) s
      (markSigned crate sponge manifestId) t := by
  refine alike_reads_bind h h.status (fun status _ => ?_)
  refine alike_ite (fun _ => ?_) (fun _ => ?_)
  · exact alike_persistPhase h _ _
  · exact alike_appendEvent h _

theorem alike_markPhase
    (h : s.Twin crate sponge t)
    (next : ProtocolPhase)
    (evidence : Text) :
    Alike (Session.Twin crate sponge) (markPhase crate sponge next evidence) s
      (markPhase crate sponge next evidence) t := by
  refine alike_demand_bind h rfl (fun _ => ?_)
  refine alike_reads_bind h h.status (fun status _ => ?_)
  refine alike_reads_bind h (h.allowedTransition status next) (fun permitted _ => ?_)
  refine alike_demand_bind h rfl (fun _ => ?_)
  exact alike_persistPhase h next evidence

variable [DecidableEq S]

theorem alike_finalizeManifest
    (h : s.Twin crate sponge t)
    (manifestId : Bytes 32) :
    Alike (Session.Twin crate sponge) (finalizeManifest crate sponge manifestId) s
      (finalizeManifest crate sponge manifestId) t := by
  refine alike_reads_bind h (h.requireProposal _) (fun proposal _ => ?_)
  refine alike_reads_bind h (h.requireManifest _ _ _) (fun manifest _ => ?_)
  refine alike_get ?_
  rw [h.fields.1]
  refine alike_ite (fun _ => alike_reads h (h.signedTransaction manifestId)) (fun _ => ?_)
  refine alike_reads_bind h h.status (fun status _ => ?_)
  refine alike_demand_bind h rfl (fun _ => ?_)
  refine alike_reads_bind h (h.finishShares proposal manifest) (fun transaction _ => ?_)
  refine alike_write ?_
  refine (alike_markSigned (h.storeSigned manifestId transaction) manifestId).bind ?_
  exact fun _ _ _ _ _ hlater => alike_pure hlater transaction

theorem alike_finalizeLatest
    (h : s.Twin crate sponge t) :
    Alike (Session.Twin crate sponge) (finalizeLatest crate sponge) s
      (finalizeLatest crate sponge) t := by
  refine alike_reads_bind h (h.requireProposal _) (fun proposal _ => ?_)
  refine alike_reads_bind h (h.loadManifests proposal) (fun manifests _ => ?_)
  refine alike_lift_bind h (fun manifest _ => ?_)
  exact alike_finalizeManifest h _

end Calls

end Twins

section Restart

variable (crate : GossipCrate K S R X)
variable (sponge : Sponge)
variable [DecidableEq K] [DecidableEq S] [DecidableEq R]

/-- What a call answers. -/
inductive SessionReply where
  | done
  | ingested (outcome : IngestOutcome)
  | reserved (reservation : LocalReservation)
  | sent (wire : List UInt8)
  | signed (transaction : Transaction)

/-- The answer of a session to a call. -/
def Session.reply (s : Session K X) : SessionCall X → Except GossipError SessionReply
  | .ingest io wire => (answer (ingest crate sponge io wire) s).map .ingested
  | .reopen => (Session.openRoot crate s.root).map (fun _ => .done)
  | .refreshVerifiedTip tip now maxAge =>
      (answer (refreshVerifiedTip tip now maxAge) s).map (fun _ => .done)
  | .reserveLocalInput operationId outpoint =>
      (answer (reserveLocalInput operationId outpoint) s).map .reserved
  | .publish kind payload => (answer (publish crate sponge kind payload) s).map .sent
  | .publishProposal payload stockKey =>
      (answer (publishProposal crate sponge payload stockKey) s).map .sent
  | .publishCommitment payload feeKey =>
      (answer (publishCommitment crate sponge payload feeKey) s).map .sent
  | .publishVerifiedCommitment payload feeKey verified reservation now maxAge =>
      (answer (publishVerifiedCommitment crate sponge payload feeKey verified reservation
        now maxAge) s).map .sent
  | .authorManifest => (answer (authorManifest crate sponge) s).map .sent
  | .authorReplacement feerate =>
      (answer (authorReplacement crate sponge feerate) s).map .sent
  | .signAndPublish manifestId inputIndex signingKey verified reservation now maxAge =>
      (answer (signAndPublish crate sponge manifestId inputIndex signingKey verified
        reservation now maxAge) s).map .sent
  | .finalizeLatest => (answer (finalizeLatest crate sponge) s).map .signed
  | .finalizeManifest manifestId =>
      (answer (finalizeManifest crate sponge manifestId) s).map .signed
  | .markPhase next evidence =>
      (answer (markPhase crate sponge next evidence) s).map (fun _ => .done)

/--
Everything that is seen of a session along some calls: each answer, and the status after it.  A
directory that cannot be opened ends the calls.
-/
def Session.seen (s : Session K X) :
    List (SessionCall X) →
      List (Except GossipError SessionReply × Option (Except GossipError SessionStatus))
  | [] => []
  | call :: calls =>
      match s.perform crate sponge call with
      | some s' => (s.reply crate sponge call, some (s'.status crate sponge)) :: s'.seen calls
      | none => [(s.reply crate sponge call, none)]

variable {crate : GossipCrate K S R X}
variable {sponge : Sponge}
variable {s t : Session K X}

/-- A call answers both sessions the same, and they stay the same but for the order. -/
theorem Session.Twin.perform
    {call : SessionCall X}
    (h : s.Twin crate sponge t)
    (hcall : call.Undisturbed) :
    s.reply crate sponge call = t.reply crate sponge call ∧
      ((∃ s' t', s.perform crate sponge call = some s' ∧ t.perform crate sponge call = some t' ∧
          s'.Twin crate sponge t') ∨
        s.perform crate sponge call = none ∧ t.perform crate sponge call = none) := by
  have hlike : ∀ {α : Type} {c : Call GossipError (Session K X) α} (reply : α → SessionReply),
      Alike (Session.Twin crate sponge) c s c t →
        (answer c s).map reply = (answer c t).map reply ∧
          ((∃ s' t', some (final c s) = some s' ∧ some (final c t) = some t' ∧
            s'.Twin crate sponge t') ∨ some (final c s) = none ∧ some (final c t) = none) :=
    fun reply halike => ⟨congrArg (Except.map reply) halike.1,
      Or.inl ⟨_, _, rfl, rfl, halike.2⟩⟩
  cases call with
  | ingest io wire =>
      obtain rfl := hcall io wire rfl
      exact hlike _ (alike_ingest h wire)
  | reopen =>
      -- both sessions open the same directory
      cases h with
      | @mk pool hvalid hperm =>
          obtain ⟨s', hopen, hreopens⟩ := hvalid.exists_open
          have hsome : (Session.openRoot crate s.root).toOption = some s' := by
            rw [hopen]
            rfl
          exact ⟨rfl, Or.inl ⟨s', s', hsome, hsome, .mk (hvalid.of_reopens hreopens) (.refl _)⟩⟩
  | refreshVerifiedTip tip now maxAge => exact hlike _ (alike_refreshVerifiedTip h tip now maxAge)
  | reserveLocalInput operationId outpoint =>
      exact hlike _ (alike_reserveLocalInput h operationId outpoint)
  | publish kind payload => exact hlike _ (alike_publish h kind payload)
  | publishProposal payload stockKey => exact hlike _ (alike_publishProposal h payload stockKey)
  | publishCommitment payload feeKey => exact hlike _ (alike_publishCommitment h payload feeKey)
  | publishVerifiedCommitment payload feeKey verified reservation now maxAge =>
      exact hlike _ (alike_publishVerifiedCommitment h payload feeKey verified reservation now
        maxAge)
  | authorManifest => exact hlike _ (alike_authorManifest h)
  | authorReplacement feerate => exact hlike _ (alike_authorReplacement h feerate)
  | signAndPublish manifestId inputIndex signingKey verified reservation now maxAge =>
      exact hlike _ (alike_signAndPublish h manifestId inputIndex signingKey verified reservation
        now maxAge)
  | finalizeLatest => exact hlike _ (alike_finalizeLatest h)
  | finalizeManifest manifestId => exact hlike _ (alike_finalizeManifest h manifestId)
  | markPhase next evidence => exact hlike _ (alike_markPhase h next evidence)

/-- Along every list of calls the same is seen. -/
theorem Session.Twin.seen
    (h : s.Twin crate sponge t)
    (calls : List (SessionCall X))
    (hcalls : ∀ call ∈ calls, call.Undisturbed) :
    s.seen crate sponge calls = t.seen crate sponge calls := by
  induction calls generalizing s t with
  | nil => rfl
  | cons call calls ih =>
      have hrest : ∀ call ∈ calls, call.Undisturbed :=
        fun later hlater => hcalls later (List.mem_cons_of_mem call hlater)
      obtain ⟨hreply, hnext⟩ := h.perform (hcalls call List.mem_cons_self)
      simp only [Session.seen, hreply]
      rcases hnext with ⟨s', t', hs, ht, htwin⟩ | ⟨hs, ht⟩
      · rw [hs, ht]
        simp only [ih htwin hrest, htwin.status]
      · rw [hs, ht]

/--
The directory of a session that was started and, after any crash, opened again can always be
opened once more, and nothing tells the opened session from the one that was not closed: the
status is the same, and every sequence of calls is answered the same and shows the same status
after each call.
-/
theorem restart_invisible
    (h : (crashingSessions crate sponge).Reachable s) :
    ∃ t, Session.openRoot crate s.root = .ok t ∧
      t.status crate sponge = s.status crate sponge ∧
      ∀ calls : List (SessionCall X), (∀ call ∈ calls, call.Undisturbed) →
        t.seen crate sponge calls = s.seen crate sponge calls := by
  have hvalid := valid_of_reachable h
  obtain ⟨t, hopen, hreopens⟩ := hvalid.exists_open
  have htwin := hvalid.twin_of_reopens hreopens
  exact ⟨t, hopen, htwin.status.symm, fun calls hcalls => (htwin.seen calls hcalls).symm⟩

/-- The session with a proposal and a commitment can be restarted. -/
theorem SampleSession.committed_restarts :
    ∃ t, Session.openRoot SampleSession.crate SampleSession.committed.root = .ok t ∧
      t.status SampleSession.crate foldSponge =
        SampleSession.committed.status SampleSession.crate foldSponge ∧
      ∀ calls : List (SessionCall SampleSession.Secret), (∀ call ∈ calls, call.Undisturbed) →
        t.seen SampleSession.crate foldSponge calls =
          SampleSession.committed.seen SampleSession.crate foldSponge calls :=
  restart_invisible (crashing_of_undisturbed SampleSession.reachable_committed)

end Restart

end OpenCsv
