import OpenCsv.Cbf.HeaderRules
import OpenCsv.Lib.System

/-!
# The header chain of the client

Headers with their hashes and cumulative work, appended after validation, cut back to the
fork point when a peer's headers attach below the tip, and kept in a cache file that is
validated again when it is read.

A peer answers each request with any headers or an error.  A chain is determined by its
headers: it is what appending them to an empty chain gives, and truncation keeps this.

**Results.**
* `HeaderChain.load_persist`: a chain is read back from its own cache file.
* `HeaderChain.sound_of_reachable`: in every run of synchronisation, appending, cutting and
  reloading, the chain is valid by the rules of its network, and hashes and work belong to
  its headers.
-/

namespace OpenCsv

open Call

/-- A validated header chain; the index of a header is its height. -/
structure HeaderChain where
  params : Params
  headers : List BlockHeader
  hashes : List (Bytes 32)
  chainwork : List (BitVec 128)

/-- Parse the 80-byte wire encoding. -/
def BlockHeader.parse (bytes : List UInt8) : Except Text BlockHeader :=
  answer (do
    let header ← BlockHeader.read
    let rest ← get
    demand rest.isEmpty (Text.lit "block header longer than 80 bytes")
    return header) bytes

/-- An answer of a peer to `getheaders`. -/
abbrev HeaderAnswer := Except CbfError (List BlockHeader)

namespace HeaderChain

section Chain

variable (profile : Profile)
variable (sha256 : Sha256)

def new (params : Params) : HeaderChain :=
  ⟨params, [], [], []⟩

def tipHeight (chain : HeaderChain) : Option UInt64 :=
  match chain.headers.length with
  | 0 => none
  | n + 1 => some (UInt64.ofNat n)

def hashAt (chain : HeaderChain) (height : UInt64) : Option (Bytes 32) :=
  chain.hashes[height.toNat]?

/-- Cumulative work at the tip. -/
def tipWork (chain : HeaderChain) : BitVec 128 :=
  chain.chainwork.getLast?.getD 0

/-- The work of a header that would come next. -/
def headerWork (chain : HeaderChain) (header : BlockHeader) :
    Except (Stop CbfError) (BitVec 128) :=
  let height := chain.headers.length
  if height = 0 then do
    require (header.hash sha256 = chain.params.genesisHash)
      (.error (.consensus (Text.lit "peer's genesis block does not match the network")))
    let target ← okOr (fromCompact header.bits)
      (.error (.consensus (Text.lit "bad genesis bits")))
    workFromTarget profile target
  else
    validateHeader profile sha256 chain.params chain.headers height header

/-- The chain with one more header. -/
def appended (chain : HeaderChain) (header : BlockHeader) :
    Except (Stop CbfError) HeaderChain := do
  let work ← chain.headerWork profile sha256 header
  let total ← profile.add chain.tipWork work
  return { chain with
    hashes := chain.hashes ++ [header.hash sha256]
    headers := chain.headers ++ [header]
    chainwork := chain.chainwork ++ [total] }

def appendValidated (header : BlockHeader) : Call (Stop CbfError) HeaderChain Unit := do
  let chain ← get
  let chain' ← lift (chain.appended profile sha256 header)
  set chain'

/-- Keep the first `len` headers. -/
def truncate (chain : HeaderChain) (len : ℕ) : HeaderChain :=
  { chain with
    headers := chain.headers.take len
    hashes := chain.hashes.take len
    chainwork := chain.chainwork.take len }

/-- Take a header of a batch: on the tip, at a fork below it, or not at all. -/
def attach (header : BlockHeader) : Call (Stop CbfError) HeaderChain ℕ := do
  let chain ← get
  if chain.hashes.getLast? = some header.prevBlock then do
    appendValidated profile sha256 header
    return 1
  else
    match chain.hashes.findIdx? (· = header.prevBlock) with
    | some fork => do
        modify (·.truncate (fork + 1))
        appendValidated profile sha256 header
        return 1
    | none => return 0

/-- Take the headers of a batch in order. -/
def attachAll : List BlockHeader → Call (Stop CbfError) HeaderChain ℕ
  | [] => return 0
  | header :: headers => do
      let n ← attach profile sha256 header
      let m ← attachAll headers
      return n + m

/-- Take batches until an empty one; without an answer the loop waits. -/
def follow : (appended : ℕ) → List HeaderAnswer → Call (Stop CbfError) HeaderChain (Option ℕ)
  | _, [] => return none
  | _, .error e :: _ => throw (.error e)
  | appended, .ok headers :: answers =>
      if headers.isEmpty then return some appended
      else do
        let n ← attachAll profile sha256 headers
        follow (appended + n) answers

/-- Sync from a peer to its tip; the answer is the number of new headers. -/
def sync (answers : List HeaderAnswer) : Call (Stop CbfError) HeaderChain (Option ℕ) := do
  let chain ← get
  if chain.headers.isEmpty then
    match answers with
    | [] => return none
    | .error e :: _ => throw (.error e)
    | .ok [genesis] :: answers => do
        appendValidated profile sha256 genesis
        follow profile sha256 1 answers
    | .ok headers :: _ =>
        throw (.error (.protocol (Text.lit "genesis request returned " ++
          Text.ofNat headers.length ++ Text.lit " headers")))
  else
    follow profile sha256 0 answers

/-- The cache file: all headers in a row. -/
def persist (chain : HeaderChain) : List UInt8 :=
  chain.headers.flatMap BlockHeader.serialize

/-- Append the headers of a cache; one that does not validate empties the chain. -/
def loadChunks (chain : HeaderChain) : List (List UInt8) → Except (Stop CbfError) HeaderChain
  | [] => .ok chain
  | chunk :: chunks =>
      match BlockHeader.parse chunk with
      | .error e => .error (.error (.protocol e))
      | .ok header =>
          match chain.appended profile sha256 header with
          | .ok chain' => loadChunks chain' chunks
          | .error (.error _) => .ok (new chain.params)
          | .error .panic => .error .panic

/-- Chunks of 80 bytes. -/
def chunks (bytes : List UInt8) : List (List UInt8) :=
  (List.range (bytes.length / 80)).map (fun i => (bytes.drop (80 * i)).take 80)

/-- Load the chain from its cache file, validating it again. -/
def load (params : Params) (file : Option (List UInt8)) : Except (Stop CbfError) HeaderChain :=
  match file with
  | none => .ok (new params)
  | some bytes =>
      if bytes.length % 80 ≠ 0 then .ok (new params)
      else loadChunks profile sha256 (new params) (chunks bytes)

/-- What appending headers to an empty chain gives. -/
def replay (params : Params) (headers : List BlockHeader) : Except (Stop CbfError) HeaderChain :=
  headers.foldlM (appended profile sha256) (new params)

/-- The chain is determined by its headers. -/
def Replayed (chain : HeaderChain) : Prop :=
  replay profile sha256 chain.params chain.headers = .ok chain

/-- Hashes and cumulative work belong to the headers, and these obey the rules. -/
structure Sound (network : Network) (chain : HeaderChain) : Prop where
  valid : ValidHeaders sha256 network.rules chain.headers
  hashes : chain.hashes = chain.headers.map (fun header => header.hash sha256)
  work_length : chain.chainwork.length = chain.headers.length
  work : ∀ h work, chain.chainwork[h]? = some work →
    work.toNat = totalWork (chain.headers.take (h + 1)) % 2 ^ 128
  /-- A development build does not wrap. -/
  room : profile = .dev → totalWork chain.headers < 2 ^ 128

/-- What is done to a chain. -/
inductive ChainStep where
  | sync (answers : List HeaderAnswer)
  | append (header : BlockHeader)
  | cut (fork : ℕ)
  | reload (file : Option (List UInt8))

/-- Runs of the chain of a network, from an empty one on. -/
def chainSystem (network : Network) : System HeaderChain ChainStep where
  init chain := chain = new (OpenCsv.params network)
  step chain step chain' :=
    match step with
    | .sync answers => chain' = final (sync profile sha256 answers) chain
    | .append header => chain' = final (appendValidated profile sha256 header) chain
    | .cut fork => chain' = chain.truncate (fork + 1)
    | .reload file => load profile sha256 chain.params file = .ok chain'

end Chain

section Replaying

variable {profile : Profile}
variable {sha256 : Sha256}
variable {params : Params}
variable {chain chain' : HeaderChain}
variable {header : BlockHeader}
variable {headers : List BlockHeader}

theorem appended_eq_ok
    (h : chain.appended profile sha256 header = .ok chain') :
    ∃ work, chain.headerWork profile sha256 header = .ok work ∧
      (profile = .dev → chain.tipWork.toNat + work.toNat < 2 ^ 128) ∧
      chain' = { chain with
        hashes := chain.hashes ++ [header.hash sha256]
        headers := chain.headers ++ [header]
        chainwork := chain.chainwork ++ [chain.tipWork + work] } := by
  obtain ⟨work, hwork, h⟩ := except_bind_eq_ok_iff.mp h
  obtain ⟨total, htotal, h⟩ := except_bind_eq_ok_iff.mp h
  rw [Profile.add_eq_ok_iff] at htotal
  obtain ⟨hfits, rfl⟩ := htotal
  exact ⟨work, hwork, hfits, (Except.ok.inj h).symm⟩

theorem replay_append_singleton :
    replay profile sha256 params (headers ++ [header]) =
      replay profile sha256 params headers >>= fun chain =>
        chain.appended profile sha256 header := by
  rw [replay, List.foldlM_append]
  simp only [List.foldlM_cons, List.foldlM_nil, bind_pure]
  rfl

/-- A replayed chain has its headers, their hashes and as many works. -/
theorem shape_of_replay
    (h : replay profile sha256 params headers = .ok chain) :
    chain.params = params ∧ chain.headers = headers ∧
      chain.hashes = headers.map (fun header => header.hash sha256) ∧
        chain.chainwork.length = headers.length := by
  induction headers using List.reverseRecOn generalizing chain with
  | nil =>
      obtain rfl := Except.ok.inj h
      exact ⟨rfl, rfl, rfl, rfl⟩
  | append_singleton headers header ih =>
      rw [replay_append_singleton] at h
      obtain ⟨chain₀, hreplay, happended⟩ := except_bind_eq_ok_iff.mp h
      obtain ⟨hparams, hheaders, hhashes, hlen⟩ := ih hreplay
      obtain ⟨work, -, -, rfl⟩ := appended_eq_ok happended
      refine ⟨hparams, ?_, ?_, ?_⟩
      · rw [hheaders]
      · rw [hhashes, List.map_append, List.map_cons, List.map_nil]
      · rw [List.length_append, List.length_append, hlen]
        rfl

theorem Replayed.new :
    Replayed profile sha256 (new params) :=
  rfl

theorem Replayed.appended
    (h : Replayed profile sha256 chain)
    (happended : chain.appended profile sha256 header = .ok chain') :
    Replayed profile sha256 chain' := by
  have hshape := appended_eq_ok happended
  obtain ⟨work, -, -, rfl⟩ := hshape
  show replay profile sha256 chain.params (chain.headers ++ [header]) = _
  have hreplay : replay profile sha256 chain.params chain.headers = .ok chain := h
  rw [replay_append_singleton, hreplay]
  exact happended

/-- Cutting a chain gives the chain of the headers that are left. -/
theorem replay_take
    (n : ℕ)
    (h : replay profile sha256 params headers = .ok chain) :
    replay profile sha256 params (headers.take n) = .ok (chain.truncate n) := by
  induction headers using List.reverseRecOn generalizing chain with
  | nil =>
      obtain rfl := Except.ok.inj h
      simp [replay, truncate, HeaderChain.new, pure, Except.pure]
  | append_singleton headers header ih =>
      obtain ⟨-, hheaders, hhashes, hlen⟩ := shape_of_replay h
      by_cases hn : n ≤ headers.length
      · rw [replay_append_singleton] at h
        obtain ⟨chain₀, hreplay, happended⟩ := except_bind_eq_ok_iff.mp h
        obtain ⟨-, hheaders₀, hhashes₀, hlen₀⟩ := shape_of_replay hreplay
        obtain ⟨work, -, -, rfl⟩ := appended_eq_ok happended
        rw [List.take_append_of_le_length hn, ih hreplay]
        simp only [truncate]
        rw [List.take_append_of_le_length (by rw [hheaders₀]; exact hn),
          List.take_append_of_le_length (by rw [hhashes₀, List.length_map]; exact hn),
          List.take_append_of_le_length (by rw [hlen₀]; exact hn)]
      · have hall : (headers ++ [header]).length ≤ n := by
          rw [List.length_append, List.length_singleton]
          omega
        rw [List.take_of_length_le hall, h]
        simp only [truncate]
        rw [List.take_of_length_le (by rw [hheaders]; exact hall),
          List.take_of_length_le (by rw [hhashes, List.length_map]; exact hall),
          List.take_of_length_le (by rw [hlen]; exact hall)]

theorem Replayed.truncate
    (h : Replayed profile sha256 chain)
    (n : ℕ) :
    Replayed profile sha256 (chain.truncate n) :=
  replay_take n h

end Replaying

section Soundness

variable {profile : Profile}
variable {sha256 : Sha256}
variable {network : Network}
variable {chain : HeaderChain}
variable {header : BlockHeader}
variable {headers : List BlockHeader}

theorem totalWork_append_singleton :
    totalWork (headers ++ [header]) = totalWork headers + header.work := by
  simp [totalWork]

/-- A header that is appended has its work, and follows the headers before it. -/
theorem headerWork_eq
    (hvalid : ValidHeaders sha256 network.rules headers)
    (hparams : chain.params = OpenCsv.params network)
    (hheaders : chain.headers = headers)
    {work : BitVec 128}
    (h : chain.headerWork profile sha256 header = .ok work) :
    ValidHeaders sha256 network.rules (headers ++ [header]) ∧
      work.toNat = header.work % 2 ^ 128 ∧ (profile = .dev → header.work < 2 ^ 128) := by
  simp only [headerWork, hheaders, hparams] at h
  by_cases hnil : headers = []
  · subst hnil
    rw [if_pos List.length_nil] at h
    obtain ⟨_, hgenesis, h⟩ := except_bind_eq_ok_iff.mp h
    obtain ⟨target, hcompact, h⟩ := except_bind_eq_ok_iff.mp h
    rw [require_eq_ok_iff, decide_eq_true_eq, genesisHash_rules] at hgenesis
    rw [okOr_eq_ok_iff] at hcompact
    have hwork := workFromTarget_eq (fromCompact_lt hcompact) h
    rw [fromCompact_eq hcompact] at hwork
    exact ⟨ValidHeaders.singleton hgenesis, hwork⟩
  · rw [if_neg (fun h => hnil (List.length_eq_zero_iff.mp h))] at h
    obtain ⟨hfollows, hwork⟩ := Follows.of_validateHeader hvalid hnil h
    exact ⟨hvalid.append hnil hfollows, hwork⟩

/-- The tip work of a sound chain is the work of all its headers. -/
theorem Sound.tipWork
    (h : chain.Sound profile sha256 network) :
    chain.tipWork.toNat = totalWork chain.headers % 2 ^ 128 := by
  rw [HeaderChain.tipWork, List.getLast?_eq_getElem?, h.work_length]
  cases hlen : chain.headers.length with
  | zero =>
      have hnil : chain.chainwork[0 - 1]? = none :=
        List.getElem?_eq_none (by rw [h.work_length]; omega)
      rw [hnil, List.length_eq_zero_iff.mp hlen]
      rfl
  | succ n =>
      obtain ⟨tip, htip⟩ : ∃ tip, chain.chainwork[n]? = some tip :=
        ⟨_, List.getElem?_eq_getElem (by rw [h.work_length]; omega)⟩
      have hvalue := h.work n tip htip
      rw [List.take_of_length_le (by omega)] at hvalue
      rw [Nat.add_sub_cancel, htip]
      exact hvalue

theorem sound_of_replay
    (h : replay profile sha256 (OpenCsv.params network) headers = .ok chain) :
    chain.Sound profile sha256 network := by
  induction headers using List.reverseRecOn generalizing chain with
  | nil =>
      obtain rfl := Except.ok.inj h
      exact ⟨ValidHeaders.nil, rfl, rfl, by simp [HeaderChain.new],
        fun _ => by simp [HeaderChain.new, totalWork]⟩
  | append_singleton headers header ih =>
      rw [replay_append_singleton] at h
      obtain ⟨chain₀, hreplay, happended⟩ := except_bind_eq_ok_iff.mp h
      have hsound := ih hreplay
      obtain ⟨hparams, hheaders, -, -⟩ := shape_of_replay hreplay
      obtain ⟨work, hwork, hfits, rfl⟩ := appended_eq_ok happended
      have hvalid := hsound.valid
      rw [hheaders] at hvalid
      obtain ⟨hvalid', hvalue, hdev⟩ := headerWork_eq hvalid hparams hheaders hwork
      have htip := hsound.tipWork
      constructor
      · show ValidHeaders sha256 network.rules (chain₀.headers ++ [header])
        rw [hheaders]
        exact hvalid'
      · simp only
        rw [hsound.hashes, List.map_append, List.map_cons, List.map_nil]
      · simp only [List.length_append, hsound.work_length]
        rfl
      · intro h work' hget
        simp only at hget ⊢
        rw [List.getElem?_append] at hget
        split at hget
        · rename_i hlt
          rw [hsound.work_length] at hlt
          rw [List.take_append_of_le_length (by omega)]
          exact hsound.work h work' hget
        · rename_i hge
          rw [hsound.work_length] at hge hget
          rw [List.getElem?_singleton] at hget
          split at hget
          · obtain rfl := Option.some.inj hget
            rw [List.take_of_length_le (by simp; omega), totalWork_append_singleton,
              BitVec.toNat_add, htip, hvalue, ← Nat.add_mod]
          · cases hget
      · intro hdevProfile
        have hroom := hsound.room hdevProfile
        have hsum := hfits hdevProfile
        show totalWork (chain₀.headers ++ [header]) < 2 ^ 128
        rw [htip, hvalue, Nat.mod_eq_of_lt hroom, Nat.mod_eq_of_lt (hdev hdevProfile)] at hsum
        rw [totalWork_append_singleton]
        exact hsum

end Soundness

section Caching

theorem readArray_append
    {n : ℕ}
    (bytes : Bytes n)
    (rest : List UInt8) :
    Reader.readArray n (bytes.toList ++ rest) = .ok bytes rest := by
  obtain ⟨bytes, hlen⟩ := bytes
  have hle : n ≤ (bytes ++ rest).length := by
    rw [List.length_append, hlen]
    omega
  have htake : (⟨(bytes ++ rest).take n, List.length_take_of_le hle⟩ : Bytes n) = ⟨bytes, hlen⟩ :=
    Subtype.ext (List.take_left' hlen)
  have hdrop : (bytes ++ rest).drop n = rest := List.drop_left' hlen
  rw [Reader.readArray, get_bind_apply]
  refine (congrFun (dif_pos hle) (bytes ++ rest)).trans ?_
  show EStateM.Result.ok (⟨(bytes ++ rest).take n, List.length_take_of_le hle⟩ : Bytes n)
    ((bytes ++ rest).drop n) = .ok ⟨bytes, hlen⟩ rest
  rw [htake, hdrop]

theorem readU32_append
    (n : UInt32)
    (rest : List UInt8) :
    Reader.readU32 (leBytes 4 n.toNat ++ rest) = .ok n rest := by
  have hread := readArray_append (Bytes.ofLe 4 n.toNat) rest
  have hlt : n.toNat < 256 ^ 4 := n.toNat_lt
  have hvalue : UInt32.ofNat (Bytes.ofLe 4 n.toNat).toLe = n := by
    rw [Bytes.toLe_ofLe, Nat.mod_eq_of_lt hlt, UInt32.ofNat_toNat]
  have hle : Reader.readLe 4 (leBytes 4 n.toNat ++ rest) =
      .ok (Bytes.ofLe 4 n.toNat).toLe rest :=
    bind_of_ok hread
  refine (bind_of_ok hle).trans ?_
  rw [hvalue]
  rfl

theorem readI32_append
    (n : Int32)
    (rest : List UInt8) :
    Reader.readI32 (leBytes 4 n.toUInt32.toNat ++ rest) = .ok n rest :=
  bind_of_ok (readU32_append n.toUInt32 rest)

/-- A header is read back from its wire encoding. -/
theorem parse_serialize
    (header : BlockHeader) :
    BlockHeader.parse header.serialize = .ok header := by
  have hserialize : header.serialize =
      leBytes 4 header.version.toUInt32.toNat ++ (header.prevBlock.toList ++
        (header.merkleRoot.toList ++ (leBytes 4 header.time.toNat ++
          (leBytes 4 header.bits.toNat ++ (leBytes 4 header.nonce.toNat ++ []))))) := by
    simp [BlockHeader.serialize]
  have hread : BlockHeader.read header.serialize = .ok header [] := by
    rw [hserialize]
    exact (bind_of_ok (readI32_append _ _)).trans ((bind_of_ok (readArray_append _ _)).trans
      ((bind_of_ok (readArray_append _ _)).trans ((bind_of_ok (readU32_append _ _)).trans
        ((bind_of_ok (readU32_append _ _)).trans (bind_of_ok (readU32_append _ _))))))
  have hparse := bind_of_ok (f := fun header => do
    let rest ← get
    demand rest.isEmpty (Text.lit "block header longer than 80 bytes")
    return header) hread
  rw [BlockHeader.parse, answer, hparse]
  rfl

theorem serialize_length
    (header : BlockHeader) :
    header.serialize.length = 80 := by
  simp [BlockHeader.serialize]

theorem chunks_flatMap
    (headers : List BlockHeader) :
    (headers.flatMap BlockHeader.serialize).length = 80 * headers.length ∧
      chunks (headers.flatMap BlockHeader.serialize) = headers.map BlockHeader.serialize := by
  induction headers with
  | nil =>
      exact ⟨rfl, rfl⟩
  | cons header headers ih =>
      obtain ⟨hlen, hchunks⟩ := ih
      have hheader := serialize_length header
      have hlen' : ((header :: headers).flatMap BlockHeader.serialize).length =
          80 * (header :: headers).length := by
        rw [List.flatMap_cons, List.length_append, hlen, hheader, List.length_cons]
        omega
      refine ⟨hlen', ?_⟩
      rw [chunks, hlen] at hchunks
      rw [chunks, hlen', List.length_cons, Nat.mul_div_cancel_left _ (by norm_num),
        List.range_succ_eq_map, List.map_cons, List.map_map, List.map_cons, ← hchunks,
        Nat.mul_div_cancel_left _ (by norm_num)]
      congr 1
      · rw [List.flatMap_cons, Nat.mul_zero, List.drop_zero, List.take_left' hheader]
      · refine List.map_congr_left (fun i _ => ?_)
        have hdrop : 80 * (i + 1) = header.serialize.length + 80 * i := by omega
        simp only [Function.comp]
        rw [List.flatMap_cons, Nat.succ_eq_add_one, hdrop, List.drop_length_add_append]

end Caching

section Running

variable {profile : Profile}
variable {sha256 : Sha256}
variable {params : Params}
variable {chain chain' : HeaderChain}

/-- What every call on a chain of a network keeps. -/
structure Kept (profile : Profile) (sha256 : Sha256) (params : Params) (chain : HeaderChain) :
    Prop where
  replayed : Replayed profile sha256 chain
  params_eq : chain.params = params

theorem Kept.new :
    Kept profile sha256 params (new params) :=
  ⟨Replayed.new, rfl⟩

theorem Kept.truncate
    (h : Kept profile sha256 params chain)
    (n : ℕ) :
    Kept profile sha256 params (chain.truncate n) :=
  ⟨h.replayed.truncate n, h.params_eq⟩

theorem Kept.appended
    (h : Kept profile sha256 params chain)
    {header : BlockHeader}
    (happended : chain.appended profile sha256 header = .ok chain') :
    Kept profile sha256 params chain' := by
  refine ⟨h.replayed.appended happended, ?_⟩
  obtain ⟨work, -, -, rfl⟩ := appended_eq_ok happended
  exact h.params_eq

/-- The headers in the answers of a peer. -/
def sentHeaders (answers : List HeaderAnswer) : List BlockHeader :=
  answers.flatMap (fun answer =>
    match answer with
    | .ok headers => headers
    | .error _ => [])

/-- What cutting at a fork and appending some headers keeps. -/
structure Closed (profile : Profile) (sha256 : Sha256) (sent : List BlockHeader)
    (P : HeaderChain → Prop) : Prop where
  truncate : ∀ chain fork, P chain → P (chain.truncate (fork + 1))
  appended : ∀ chain header chain', header ∈ sent → P chain →
    chain.appended profile sha256 header = .ok chain' → P chain'

theorem Kept.closed
    (sent : List BlockHeader) :
    Closed profile sha256 sent (Kept profile sha256 params) where
  truncate _ fork h := h.truncate (fork + 1)
  appended _ _ _ _ h happended := h.appended happended

section Closing

variable {P : HeaderChain → Prop}
variable {sent : List BlockHeader}

theorem leaves_appendValidated
    (hP : Closed profile sha256 sent P)
    (h : P chain)
    {header : BlockHeader}
    (hsent : header ∈ sent) :
    Leaves (appendValidated profile sha256 header) chain P := by
  refine leaves_get (leaves_lift h ?_)
  intro chain' happended
  exact hP.appended chain header chain' hsent h happended

theorem leaves_attach
    (hP : Closed profile sha256 sent P)
    (h : P chain)
    {header : BlockHeader}
    (hsent : header ∈ sent) :
    Leaves (attach profile sha256 header) chain P := by
  refine leaves_get (leaves_ite (fun _ => ?_) (fun _ => ?_))
  · exact (leaves_appendValidated hP h hsent).bind (fun _ h => h) (fun _ _ h => leaves_pure h)
  · cases chain.hashes.findIdx? (· = header.prevBlock) with
    | none => exact leaves_pure h
    | some fork =>
        exact leaves_modify ((leaves_appendValidated hP (hP.truncate chain fork h) hsent).bind
          (fun _ h => h) (fun _ _ h => leaves_pure h))

theorem leaves_attachAll
    (hP : Closed profile sha256 sent P)
    (h : P chain)
    {headers : List BlockHeader}
    (hsent : ∀ header ∈ headers, header ∈ sent) :
    Leaves (attachAll profile sha256 headers) chain P := by
  induction headers generalizing chain with
  | nil =>
      exact leaves_pure h
  | cons header headers ih =>
      obtain ⟨hheader, hheaders⟩ := List.forall_mem_cons.mp hsent
      refine (leaves_attach hP h hheader).bind (fun _ h => h) ?_
      intro _ chain' h'
      exact (ih h' hheaders).bind (fun _ h => h) (fun _ _ h => leaves_pure h)

theorem leaves_follow
    (hP : Closed profile sha256 sent P)
    (h : P chain)
    (appended : ℕ)
    {answers : List HeaderAnswer}
    (hsent : ∀ header ∈ sentHeaders answers, header ∈ sent) :
    Leaves (follow profile sha256 appended answers) chain P := by
  induction answers generalizing chain appended with
  | nil =>
      exact leaves_pure h
  | cons answer answers ih =>
      cases answer with
      | error e => exact leaves_throw h
      | ok headers =>
          obtain ⟨hheaders, hrest⟩ : (∀ header ∈ headers, header ∈ sent) ∧
              ∀ header ∈ sentHeaders answers, header ∈ sent := by
            simp only [sentHeaders, List.flatMap_cons] at hsent
            exact List.forall_mem_append.mp hsent
          refine leaves_ite (fun _ => leaves_pure h) (fun _ => ?_)
          exact (leaves_attachAll hP h hheaders).bind (fun _ h => h) (fun n _ h' => ih h' _ hrest)

/-- A synchronisation keeps what cutting and appending keeps, wherever it stops. -/
theorem leaves_sync
    {answers : List HeaderAnswer}
    (hP : Closed profile sha256 (sentHeaders answers) P)
    (h : P chain) :
    Leaves (sync profile sha256 answers) chain P := by
  refine leaves_get (leaves_ite (fun _ => ?_)
    (fun _ => leaves_follow hP h 0 (fun _ hsent => hsent)))
  match answers with
  | [] => exact leaves_pure h
  | .error e :: _ => exact leaves_throw h
  | .ok [] :: _ => exact leaves_throw h
  | .ok [genesis] :: answers =>
      refine (leaves_appendValidated hP h (List.mem_cons_self ..)).bind (fun _ h => h) ?_
      exact fun _ _ h' => leaves_follow hP h' 1 (fun _ hsent => List.mem_cons_of_mem _ hsent)
  | .ok (_ :: _ :: _) :: _ => exact leaves_throw h

end Closing

theorem Kept.sync
    (h : Kept profile sha256 params chain)
    (answers : List HeaderAnswer) :
    Kept profile sha256 params (final (HeaderChain.sync profile sha256 answers) chain) :=
  leaves_iff.mp (leaves_sync (Kept.closed _) h)

theorem loadChunks_kept
    {chunks : List (List UInt8)}
    (h : Kept profile sha256 params chain)
    (hload : loadChunks profile sha256 chain chunks = .ok chain') :
    Kept profile sha256 params chain' := by
  induction chunks generalizing chain with
  | nil =>
      obtain rfl := Except.ok.inj hload
      exact h
  | cons chunk chunks ih =>
      rw [loadChunks] at hload
      split at hload
      · cases hload
      · split at hload
        · rename_i happended
          exact ih (h.appended happended) hload
        · rw [← Except.ok.inj hload, h.params_eq]
          exact Kept.new
        · cases hload

theorem load_kept
    {file : Option (List UInt8)}
    (hload : load profile sha256 params file = .ok chain') :
    Kept profile sha256 params chain' := by
  cases file with
  | none =>
      obtain rfl := Except.ok.inj hload
      exact Kept.new
  | some bytes =>
      rw [load] at hload
      split at hload
      · obtain rfl := Except.ok.inj hload
        exact Kept.new
      · exact loadChunks_kept Kept.new hload

variable {network : Network}

theorem kept_of_reachable
    (h : (chainSystem profile sha256 network).Reachable chain) :
    Kept profile sha256 (OpenCsv.params network) chain := by
  refine @System.Reachable.invariant _ _ (chainSystem profile sha256 network)
    (Kept profile sha256 (OpenCsv.params network)) ?_ ?_ chain h
  · rintro chain rfl
    exact Kept.new
  · intro chain step chain' hkept hstep
    cases step with
    | sync answers =>
        obtain rfl : chain' = final (sync profile sha256 answers) chain := hstep
        exact hkept.sync answers
    | append header =>
        obtain rfl : chain' = final (appendValidated profile sha256 header) chain := hstep
        exact leaves_iff.mp (leaves_appendValidated (Kept.closed [header]) hkept
          (List.mem_singleton_self header))
    | cut fork =>
        obtain rfl : chain' = chain.truncate (fork + 1) := hstep
        exact hkept.truncate (fork + 1)
    | reload file =>
        have hload : load profile sha256 chain.params file = .ok chain' := hstep
        rw [hkept.params_eq] at hload
        exact load_kept hload

theorem Kept.sound
    (h : Kept profile sha256 (OpenCsv.params network) chain) :
    chain.Sound profile sha256 network := by
  have hreplay : replay profile sha256 chain.params chain.headers = .ok chain := h.replayed
  rw [h.params_eq] at hreplay
  exact sound_of_replay hreplay

/-- The height of a tip counts the headers below it. -/
theorem Kept.length_of_tipHeight
    (h : Kept profile sha256 (OpenCsv.params network) chain)
    {tip : UInt64}
    (htip : chain.tipHeight = some tip) :
    tip.toNat + 1 = chain.headers.length ∧ chain.hashes.length = chain.headers.length := by
  have hlt := h.sound.valid.length_lt
  constructor
  · rw [tipHeight] at htip
    split at htip
    · cases htip
    · rename_i n hn
      obtain rfl := Option.some.inj htip
      rw [UInt64.toNat_ofNat', Nat.mod_eq_of_lt (by omega), hn]
  · rw [h.sound.hashes, List.length_map]

theorem loadChunks_serialize
    {headers : List BlockHeader}
    (h : headers.foldlM (HeaderChain.appended profile sha256) chain = .ok chain') :
    loadChunks profile sha256 chain (headers.map BlockHeader.serialize) = .ok chain' := by
  induction headers generalizing chain with
  | nil =>
      exact h
  | cons header headers ih =>
      rw [List.foldlM_cons] at h
      obtain ⟨chain₁, happended, h⟩ := except_bind_eq_ok_iff.mp h
      rw [List.map_cons, loadChunks, parse_serialize]
      simp only [happended]
      exact ih h

/-- A chain is read back from its own cache file. -/
theorem load_persist
    (h : (chainSystem profile sha256 network).Reachable chain) :
    load profile sha256 chain.params (some chain.persist) = .ok chain := by
  obtain ⟨hlen, hchunks⟩ := chunks_flatMap chain.headers
  have hmod : ¬ chain.persist.length % 80 ≠ 0 := by
    rw [persist, hlen, Nat.mul_mod_right]
    exact fun h => h rfl
  rw [load, if_neg hmod, persist, hchunks]
  exact loadChunks_serialize (kept_of_reachable h).replayed

/-- In every run, a chain obeys the rules of its network. -/
theorem sound_of_reachable
    (h : (chainSystem profile sha256 network).Reachable chain) :
    chain.Sound profile sha256 network :=
  (kept_of_reachable h).sound

end Running

namespace Sample

def genesis : BlockHeader where
  version := 1
  prevBlock := Bytes.zero 32
  merkleRoot := hashFromDisplay
    0x4a5e1e4baab89f3a32518a88c31bc87f618f76673e2cc77ab2127b7afdeda33b
  time := 1296688602
  bits := 0x207fffff
  nonce := 2

/-- A header mined on another one. -/
def minedOn (prev : BlockHeader) (root : UInt8) (nonce : UInt32) : BlockHeader where
  version := 1
  prevBlock := prev.hash Sha2.sha256
  merkleRoot := List.Vector.replicate 32 root
  time := prev.time + 1
  bits := 0x207fffff
  nonce := nonce

def first : BlockHeader := minedOn genesis 0 1

def second : BlockHeader := minedOn first 0 0

/-- Another first block. -/
def rival : BlockHeader := minedOn genesis 1 1

/-- A chain of two blocks over the genesis block of the test network. -/
def chain : HeaderChain :=
  final (sync .dev Sha2.sha256 [.ok [genesis], .ok [first, second], .ok []])
    (HeaderChain.new (OpenCsv.params .regtest))

theorem chain_reachable :
    (chainSystem .dev Sha2.sha256 .regtest).Reachable chain := by
  have hstep : (chainSystem .dev Sha2.sha256 .regtest).step
      (HeaderChain.new (OpenCsv.params .regtest))
      (.sync [.ok [genesis], .ok [first, second], .ok []]) chain := rfl
  exact (System.Reachable.init rfl).step hstep

theorem chain_headers :
    chain.headers = [genesis, first, second] ∧ chain.tipWork = 6 := by
  decide +kernel

theorem chain_sound :
    chain.Sound .dev Sha2.sha256 .regtest ∧ chain.headers.length = 3 :=
  ⟨sound_of_reachable chain_reachable, by rw [chain_headers.1]; rfl⟩

end Sample

end HeaderChain

end OpenCsv
