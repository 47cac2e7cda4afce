import OpenCsv.Cli.SessionSigning

/-!
# What ingesting a frame does

Ingesting a frame decides first, and writes after.  The decision is a function of the session
and the bytes alone: the frame is refused, it repeats a stored frame, or it brings an object.
Only in the last case files are written, in a fixed order that any failing write cuts short.

**Results.** `ingest_apply` splits a call into its decision and its writes; with no failing
write the session is left as it was or in the state `Session.accept` (`ingest_done`).
-/

namespace OpenCsv

open Call

variable {K S R X : Type}
variable (crate : GossipCrate K S R X)
variable (sponge : Sponge)

section Decision

variable [DecidableEq K]

/-- The file of an object is missing, or it is the same. -/
def checkStored
    (path : SemanticPath)
    (existing : Option (List UInt8))
    (payload : List UInt8) : Except GossipError Unit :=
  match existing with
  | none => .ok ()
  | some existing => do
      let existing ← readLimited existing maxPayloadBytes path.display
      require (existing = payload)
        (protocolText (Text.lit "semantic equivocation at " ++ path.display))

namespace Session

/-- All checks of a frame that is not stored. -/
def admission
    (s : Session K X)
    (frame : SignedFrame K R)
    (wireLen : ℕ) : Except GossipError (SemanticObject K S) := do
  s.requireOpen
  s.enforceFramePolicy crate sponge frame wireLen
  let object ← s.validateSemantic crate sponge frame
  checkStored (object.path crate) (s.root.read (object.path crate)) frame.payload
  return object

/-- What a session makes of some bytes: a repeated frame, or a frame with a new object. -/
def arrival
    [DecidableEq R]
    (s : Session K X)
    (wire : List UInt8) : Except GossipError (Option (SignedFrame K R × SemanticObject K S)) := do
  let frame ← SignedFrame.fromWire crate wire
  s.verifyOriginAuthorization crate frame
  match s.root.frames.get (frame.semanticFrameId crate) with
  | some existing => do
      checkDuplicate crate frame existing
      return none
  | none => do
      let object ← s.admission crate sponge frame wire.length
      return some (frame, object)

end Session

end Decision

section Writes

namespace Session

/-- The file of the object is in place. -/
def store
    (s : Session K X)
    (object : SemanticObject K S)
    (payload : List UInt8) : Session K X :=
  { s with root := s.root.write (object.path crate) payload }

/-- The file of the frame is in place. -/
def putFrame
    (s : Session K X)
    (frame : SignedFrame K R)
    (wire : List UInt8) : Session K X :=
  { s with root := { s.root with
    frames := s.root.frames.insert (frame.semanticFrameId crate) wire } }

/-- The bytes of the frame are counted. -/
def count (s : Session K X) (length : ℕ) : Session K X :=
  { s with storedFrameBytes := s.storedFrameBytes + UInt64.ofNat length }

/-- The state after a frame with a new object. -/
def accept
    (s : Session K X)
    (frame : SignedFrame K R)
    (object : SemanticObject K S)
    (wire : List UInt8) : Session K X :=
  (((s.store crate object frame.payload).remember crate object frame.sender).putFrame crate
    frame wire).count wire.length

end Session

/-- Write the frame and the event, when the object is stored. -/
def writeFrame
    (io : IngestWrite → WriteOutcome)
    (frame : SignedFrame K R)
    (wire : List UInt8)
    (s : Session K X) : EStateM.Result GossipError (Session K X) IngestOutcome :=
  match io .frame with
  | .failed => .error .io s
  | .unsynced => .error .io (s.putFrame crate frame wire)
  | .done =>
      let s := (s.putFrame crate frame wire).count wire.length
      if io .event = .done then .ok .accepted s else .error .io s

/-- Write the object, unless it is stored, then the frame and the event. -/
def writeAll
    (io : IngestWrite → WriteOutcome)
    (frame : SignedFrame K R)
    (object : SemanticObject K S)
    (wire : List UInt8)
    (s : Session K X) : EStateM.Result GossipError (Session K X) IngestOutcome :=
  if (s.root.read (object.path crate)).isSome then
    writeFrame crate io frame wire (s.remember crate object frame.sender)
  else
    match io .semantic with
    | .failed => .error .io s
    | .unsynced => .error .io (s.store crate object frame.payload)
    | .done => writeFrame crate io frame wire
        ((s.store crate object frame.payload).remember crate object frame.sender)

end Writes

section Running

variable {crate : GossipCrate K S R X}
variable {sponge : Sponge}
variable {s : Session K X}
variable {frame : SignedFrame K R}
variable {object : SemanticObject K S}
variable {wire : List UInt8}

@[simp] theorem Session.remember_root
    (s : Session K X)
    (object : SemanticObject K S)
    (sender : K) :
    (s.remember crate object sender).root = s.root := by
  cases object with
  | commitment c =>
      rw [Session.remember]
      split_ifs <;> rfl
  | _ => rfl

@[simp] theorem Session.remember_storedFrameBytes
    (s : Session K X)
    (object : SemanticObject K S)
    (sender : K) :
    (s.remember crate object sender).storedFrameBytes = s.storedFrameBytes := by
  cases object with
  | commitment c =>
      rw [Session.remember]
      split_ifs <;> rfl
  | _ => rfl

/-- Hexadecimal digits are on one line. -/
theorem toHex_oneLine
    (bs : List UInt8) :
    (toHex bs).bytes.any (fun b => b == 0x0A || b == 0x0D) = false := by
  rw [List.any_eq_false]
  intro c hc
  obtain ⟨b, -, hb⟩ := List.mem_flatMap.mp hc
  have hdigits : (hexPair b).all (fun c => !(c == 0x0A || c == 0x0D)) = true := by
    refine forall_byte
      (p := fun b => (hexPair b).all (fun c => !(c == 0x0A || c == 0x0D)) = true) ?_ b
    decide +kernel
  have hdigit := List.all_eq_true.mp hdigits c hb
  simpa using hdigit

/-- The event of an accepted frame is a short line. -/
theorem acceptedEvent_fits
    (frame : SignedFrame K R) :
    (acceptedEvent crate frame).bytes.length ≤ 1024 ∧
      (acceptedEvent crate frame).bytes.any (fun b => b == 0x0A || b == 0x0D) = false := by
  have hname : ∀ kind : MessageKind, (Text.lit kind.name).bytes.length ≤ 16 ∧
      (Text.lit kind.name).bytes.any (fun b => b == 0x0A || b == 0x0D) = false := by
    intro kind
    cases kind <;> decide +kernel
  have hword : (Text.lit "accepted ").bytes.length = 9 ∧
      (Text.lit "accepted ").bytes.any (fun b => b == 0x0A || b == 0x0D) = false := by
    decide +kernel
  have hblank : (Text.lit " ").bytes = [0x20] := by
    decide +kernel
  have hbytes : (acceptedEvent crate frame).bytes =
      (Text.lit "accepted ").bytes ++ (Text.lit frame.kind.name).bytes ++
        (Text.lit " ").bytes ++ (toHex (frame.id crate).toList).bytes ++
          (Text.lit " ").bytes ++ (toHex (crate.serializeKey frame.sender).toList).bytes := rfl
  have hkind := hname frame.kind
  constructor
  · rw [hbytes]
    simp only [List.length_append, hword.1, hblank, List.length_singleton, toHex_length,
      List.Vector.toList_length]
    omega
  · rw [hbytes]
    simp only [List.any_append, hword.2, hkind.2, hblank, toHex_oneLine, Bool.or_false]
    decide

theorem appendEvent_apply
    (outcome : WriteOutcome)
    {event : Text}
    (hlength : event.bytes.length ≤ 1024)
    (hline : event.bytes.any (fun b => b == 0x0A || b == 0x0D) = false)
    (s : Session K X) :
    appendEvent outcome event s =
      if outcome = .done then .ok () s else .error .io s := by
  have hcheck : (event.bytes.length ≤ 1024 &&
      !event.bytes.any (fun b => b == 0x0A || b == 0x0D)) = true := by
    simp [hlength, hline]
  unfold appendEvent
  rw [demand_bind_apply, hcheck]
  cases outcome <;> rfl

theorem atomicWrite_apply
    (outcome : WriteOutcome)
    (update : SessionRoot X → SessionRoot X)
    (s : Session K X) :
    atomicWrite outcome update s =
      match outcome with
      | .done => .ok () { s with root := update s.root }
      | .failed => .error .io s
      | .unsynced => .error .io { s with root := update s.root } := by
  cases outcome <;> rfl

theorem semanticWrite_apply
    (outcome : WriteOutcome)
    (path : SemanticPath)
    (bytes : List UInt8)
    (s : Session K X) :
    semanticWrite outcome path bytes s =
      match checkStored path (s.root.read path) bytes with
      | .error e => .error e s
      | .ok () =>
          if (s.root.read path).isSome then .ok () s
          else atomicWrite outcome (fun root => root.write path bytes) s := by
  rw [semanticWrite, get_bind_apply]
  cases hread : s.root.read path with
  | none => rfl
  | some existing =>
      rw [checkStored]
      simp only [lift_bind_apply]
      cases readLimited existing maxPayloadBytes path.display with
      | error e => rfl
      | ok existing =>
          simp only [Option.isSome_some, if_true]
          by_cases heq : existing = bytes
          · simp [heq, demand, require, bind, Except.bind]
            rfl
          · simp [heq, demand, require, bind, Except.bind]
            rfl

variable [DecidableEq K]

/-- The count of the bytes was checked before anything was written. -/
theorem Session.bytes_of_admission
    {wireLen : ℕ}
    (h : s.admission crate sponge frame wireLen = .ok object) :
    checkedAdd s.storedFrameBytes (UInt64.ofNat wireLen) =
        some (s.storedFrameBytes + UInt64.ofNat wireLen) ∧
      s.storedFrameBytes + UInt64.ofNat wireLen ≤ s.relayPolicy.maxSessionBytes := by
  simp only [Session.admission, Session.enforceFramePolicy, Session.requireFrameQuota,
    except_bind_eq_ok_iff, okOr_eq_ok_iff, require_eq_ok_iff, decide_eq_true_eq] at h
  obtain ⟨-, -, -, ⟨-, ⟨projected, hadd, hquota⟩, -⟩, -⟩ := h
  unfold checkedAdd at hadd ⊢
  split_ifs at hadd ⊢ with hroom
  obtain rfl := Option.some.inj hadd
  exact ⟨rfl, hquota⟩

omit [DecidableEq K] in
/-- Write the frame, count it and log it. -/
theorem frameWrites_apply
    {io : IngestWrite → WriteOutcome}
    (hcount : checkedAdd s.storedFrameBytes (UInt64.ofNat wire.length) =
      some (s.storedFrameBytes + UInt64.ofNat wire.length)) :
    (do
      atomicWrite (io .frame) (fun root =>
        { root with frames := root.frames.insert (frame.semanticFrameId crate) wire })
      let s ← get
      let storedFrameBytes ←
        lift (okOr (checkedAdd s.storedFrameBytes (UInt64.ofNat wire.length))
          (protocolError "stored frame-byte counter overflow"))
      modify (fun s => { s with storedFrameBytes })
      appendEvent (io .event) (acceptedEvent crate frame)
      return IngestOutcome.accepted : Call GossipError (Session K X) IngestOutcome) s =
        writeFrame crate io frame wire s := by
  obtain ⟨hlength, hline⟩ := @acceptedEvent_fits _ _ _ _ crate frame
  rw [bind_apply, atomicWrite_apply, writeFrame]
  cases io .frame with
  | failed => rfl
  | unsynced => rfl
  | done =>
      simp only [get_bind_apply, hcount, okOr, lift_bind_apply, modify_bind_apply]
      rw [bind_apply, appendEvent_apply _ hlength hline]
      cases io .event <;> rfl

/-- The object of a frame is checked, written unless it is stored, and indexed. -/
theorem persistSemantic_apply
    (outcome : WriteOutcome) :
    persistSemantic crate sponge outcome frame s =
      match s.validateSemantic crate sponge frame with
      | .error e => .error e s
      | .ok object =>
          match checkStored (object.path crate) (s.root.read (object.path crate))
            frame.payload with
          | .error e => .error e s
          | .ok () =>
              if (s.root.read (object.path crate)).isSome then
                .ok ⟨⟩ (s.remember crate object frame.sender)
              else
                match outcome with
                | .done => .ok ⟨⟩
                    ((s.store crate object frame.payload).remember crate object frame.sender)
                | .failed => .error .io s
                | .unsynced => .error .io (s.store crate object frame.payload) := by
  rw [persistSemantic, reads_bind_apply]
  cases s.validateSemantic crate sponge frame with
  | error e => rfl
  | ok object =>
      simp only []
      rw [bind_apply, semanticWrite_apply]
      cases checkStored (object.path crate) (s.root.read (object.path crate)) frame.payload with
      | error e => rfl
      | ok u =>
          simp only []
          by_cases hstored : (s.root.read (object.path crate)).isSome
          · rw [if_pos hstored, if_pos hstored]
            rfl
          · rw [if_neg hstored, if_neg hstored, atomicWrite_apply]
            cases outcome <;> rfl

/-- A frame that is not stored: its checks, then its writes. -/
theorem ingestNew_apply
    (io : IngestWrite → WriteOutcome) :
    ingestNew crate sponge io frame wire s =
      match s.admission crate sponge frame wire.length with
      | .error e => .error e s
      | .ok object => writeAll crate io frame object wire s := by
  unfold ingestNew
  rw [reads_bind_apply]
  cases hopen : s.requireOpen with
  | error e =>
      rw [Session.admission, hopen]
      rfl
  | ok u =>
  simp only []
  rw [reads_bind_apply]
  cases hpolicy : s.enforceFramePolicy crate sponge frame wire.length with
  | error e =>
      rw [Session.admission, hopen, hpolicy]
      rfl
  | ok u =>
  simp only []
  rw [bind_apply, persistSemantic_apply]
  cases hobject : s.validateSemantic crate sponge frame with
  | error e =>
      rw [Session.admission, hopen, hpolicy, hobject]
      rfl
  | ok object =>
  simp only []
  cases hstored : checkStored (object.path crate) (s.root.read (object.path crate))
      frame.payload with
  | error e =>
      have hadmission : s.admission crate sponge frame wire.length = .error e := by
        rw [Session.admission, hopen, hpolicy, hobject]
        simp only [bind, Except.bind]
        rw [hstored]
      rw [hadmission]
  | ok u =>
      have hadmission : s.admission crate sponge frame wire.length = .ok object := by
        rw [Session.admission, hopen, hpolicy, hobject]
        simp only [bind, Except.bind]
        rw [hstored]
        rfl
      have hcount := (Session.bytes_of_admission hadmission).1
      rw [hadmission]
      simp only [writeAll]
      by_cases hread : (s.root.read (object.path crate)).isSome
      · simp only [if_pos hread]
        exact frameWrites_apply (by rwa [Session.remember_storedFrameBytes])
      · simp only [if_neg hread]
        cases io .semantic with
        | failed => rfl
        | unsynced => rfl
        | done => exact frameWrites_apply (by rwa [Session.remember_storedFrameBytes])

variable [DecidableEq R]

/-- A call is its decision and its writes. -/
theorem ingest_apply
    (io : IngestWrite → WriteOutcome) :
    ingest crate sponge io wire s =
      match s.arrival crate sponge wire with
      | .error e => .error e s
      | .ok none => .ok .duplicate s
      | .ok (some (frame, object)) => writeAll crate io frame object wire s := by
  unfold ingest
  rw [lift_bind_apply]
  cases hframe : SignedFrame.fromWire crate wire with
  | error e =>
      rw [Session.arrival, hframe]
      rfl
  | ok frame =>
  simp only []
  rw [reads_bind_apply]
  cases horigin : s.verifyOriginAuthorization crate frame with
  | error e =>
      rw [Session.arrival, hframe]
      simp only [bind, Except.bind, horigin]
  | ok u =>
  simp only []
  rw [get_bind_apply]
  cases hstored : s.root.frames.get (frame.semanticFrameId crate) with
  | some existing =>
      simp only []
      rw [lift_bind_apply, Session.arrival, hframe]
      simp only [bind, Except.bind, horigin, hstored]
      cases checkDuplicate crate frame existing <;> rfl
  | none =>
      simp only []
      rw [ingestNew_apply, Session.arrival, hframe]
      simp only [bind, Except.bind, horigin, hstored]
      cases s.admission crate sponge frame wire.length <;> rfl

omit [DecidableEq K] [DecidableEq R] in
/-- A file that may be written is missing, or it is the same and small. -/
theorem checkStored_eq_ok_iff
    {path : SemanticPath}
    {existing : Option (List UInt8)}
    {payload : List UInt8} :
    checkStored path existing payload = .ok () ↔
      existing = none ∨ existing = some payload ∧ payload.length ≤ maxPayloadBytes := by
  cases existing with
  | none => simp [checkStored]
  | some existing =>
      simp only [checkStored, readLimited, except_bind_eq_ok_iff, require_eq_ok_iff,
        decide_eq_true_eq, pure, Except.pure, Except.ok.injEq, reduceCtorEq, Option.some.injEq,
        false_or]
      constructor
      · rintro ⟨_, ⟨-, hlength, rfl⟩, rfl⟩
        exact ⟨rfl, hlength⟩
      · rintro ⟨rfl, hlength⟩
        exact ⟨_, ⟨(), hlength, rfl⟩, rfl⟩

/-- Writing a file again changes nothing. -/
theorem SessionRoot.write_of_read
    {root : SessionRoot X}
    {path : SemanticPath}
    {bytes : List UInt8}
    (h : root.read path = some bytes) :
    root.write path bytes = root := by
  cases root
  cases path <;>
    simp only [SessionRoot.read] at h <;>
      simp [SessionRoot.write, h, Table.insert_of_get]

omit [DecidableEq K] [DecidableEq R] in
/-- The writes of a frame that brings an object, when none fails. -/
theorem writeAll_done
    (hstored : checkStored (object.path crate) (s.root.read (object.path crate))
      frame.payload = .ok ()) :
    writeAll crate writesDone frame object wire s =
      .ok .accepted (s.accept crate frame object wire) := by
  rw [writeAll]
  by_cases hread : (s.root.read (object.path crate)).isSome
  · have hsame : s.store crate object frame.payload = s := by
      rcases checkStored_eq_ok_iff.mp hstored with hnone | ⟨hsome, -⟩
      · rw [hnone] at hread
        cases hread
      · rw [Session.store, SessionRoot.write_of_read hsome]
    rw [if_pos hread, Session.accept, hsame]
    rfl
  · rw [if_neg hread]
    rfl

omit [DecidableEq R] in
/-- The checks of a frame that is not stored. -/
theorem Session.admission_eq_ok_iff
    {wireLen : ℕ} :
    s.admission crate sponge frame wireLen = .ok object ↔
      s.requireOpen = .ok () ∧ s.enforceFramePolicy crate sponge frame wireLen = .ok () ∧
        s.validateSemantic crate sponge frame = .ok object ∧
        (s.root.read (object.path crate) = none ∨
          s.root.read (object.path crate) = some frame.payload ∧
            frame.payload.length ≤ maxPayloadBytes) := by
  simp only [admission, except_bind_eq_ok_iff, pure, Except.pure, Except.ok.injEq]
  constructor
  · rintro ⟨_, hopen, _, hpolicy, _, hobject, _, hstored, rfl⟩
    exact ⟨hopen, hpolicy, hobject, checkStored_eq_ok_iff.mp hstored⟩
  · rintro ⟨hopen, hpolicy, hobject, hstored⟩
    exact ⟨(), hopen, (), hpolicy, object, hobject, (), checkStored_eq_ok_iff.mpr hstored, rfl⟩

/-- A frame with a new object. -/
theorem Session.arrival_eq_some_iff :
    s.arrival crate sponge wire = .ok (some (frame, object)) ↔
      SignedFrame.fromWire crate wire = .ok frame ∧
        s.verifyOriginAuthorization crate frame = .ok () ∧
        s.root.frames.get (frame.semanticFrameId crate) = none ∧
        s.admission crate sponge frame wire.length = .ok object := by
  simp only [arrival, except_bind_eq_ok_iff]
  constructor
  · rintro ⟨frame', hframe, _, horigin, h⟩
    cases hstored : s.root.frames.get (frame'.semanticFrameId crate) with
    | some existing =>
        rw [hstored] at h
        simp only [except_bind_eq_ok_iff, pure, Except.pure, Except.ok.injEq, reduceCtorEq,
          and_false, exists_false] at h
    | none =>
        rw [hstored] at h
        simp only [except_bind_eq_ok_iff, pure, Except.pure, Except.ok.injEq,
          Option.some.injEq, Prod.mk.injEq] at h
        obtain ⟨object', hobject, rfl, rfl⟩ := h
        exact ⟨hframe, horigin, hstored, hobject⟩
  · rintro ⟨hframe, horigin, hstored, hobject⟩
    refine ⟨frame, hframe, (), horigin, ?_⟩
    rw [hstored]
    simp only [hobject]
    rfl

/-- A frame whose body is stored. -/
theorem Session.arrival_eq_none_iff :
    s.arrival crate sponge wire = .ok none ↔
      ∃ frame existing, SignedFrame.fromWire crate wire = .ok frame ∧
        s.verifyOriginAuthorization crate frame = .ok () ∧
        s.root.frames.get (frame.semanticFrameId crate) = some existing ∧
        checkDuplicate crate frame existing = .ok () := by
  simp only [arrival, except_bind_eq_ok_iff]
  constructor
  · rintro ⟨frame, hframe, _, horigin, h⟩
    cases hstored : s.root.frames.get (frame.semanticFrameId crate) with
    | some existing =>
        rw [hstored] at h
        simp only [except_bind_eq_ok_iff, pure, Except.pure] at h
        obtain ⟨_, hsame, -⟩ := h
        exact ⟨frame, existing, hframe, horigin, hstored, hsame⟩
    | none =>
        rw [hstored] at h
        simp only [except_bind_eq_ok_iff, pure, Except.pure, Except.ok.injEq, reduceCtorEq,
          and_false, exists_false] at h
  · rintro ⟨frame, existing, hframe, horigin, hstored, hsame⟩
    refine ⟨frame, hframe, (), horigin, ?_⟩
    rw [hstored]
    simp only [hsame]
    rfl

/-- Without a failing write, an object is stored with its frame, or nothing changes. -/
theorem ingest_done :
    ingest crate sponge writesDone wire s =
      match s.arrival crate sponge wire with
      | .error e => .error e s
      | .ok none => .ok .duplicate s
      | .ok (some (frame, object)) => .ok .accepted (s.accept crate frame object wire) := by
  rw [ingest_apply]
  cases harrival : s.arrival crate sponge wire with
  | error e => rfl
  | ok brought =>
      cases brought with
      | none => rfl
      | some brought =>
          obtain ⟨frame, object⟩ := brought
          obtain ⟨-, -, -, hobject⟩ := Session.arrival_eq_some_iff.mp harrival
          obtain ⟨-, -, -, hstored⟩ := Session.admission_eq_ok_iff.mp hobject
          exact writeAll_done (checkStored_eq_ok_iff.mpr hstored)

theorem accepted_of_arrival
    (h : s.arrival crate sponge wire = .ok (some (frame, object))) :
    answer (ingest crate sponge writesDone wire) s = .ok .accepted ∧
      final (ingest crate sponge writesDone wire) s = s.accept crate frame object wire := by
  unfold answer final
  rw [ingest_done, h]
  exact ⟨rfl, rfl⟩

theorem refused_of_arrival
    {e : GossipError}
    (io : IngestWrite → WriteOutcome)
    (h : s.arrival crate sponge wire = .error e) :
    answer (ingest crate sponge io wire) s = .error e ∧
      final (ingest crate sponge io wire) s = s := by
  unfold answer final
  rw [ingest_apply, h]
  exact ⟨rfl, rfl⟩

/-- The object is written, and then the frame is not. -/
theorem cut_of_arrival
    {io : IngestWrite → WriteOutcome}
    (h : s.arrival crate sponge wire = .ok (some (frame, object)))
    (hnew : s.root.read (object.path crate) = none)
    (hsemantic : io .semantic = .done)
    (hframe : io .frame = .failed) :
    answer (ingest crate sponge io wire) s = .error .io ∧
      final (ingest crate sponge io wire) s =
        (s.store crate object frame.payload).remember crate object frame.sender := by
  have hstored : ¬(s.root.read (object.path crate)).isSome := by
    simp [hnew]
  unfold answer final
  rw [ingest_apply, h]
  simp only [writeAll, if_neg hstored, hsemantic, writeFrame, hframe]
  exact ⟨trivial, trivial⟩

end Running

end OpenCsv
