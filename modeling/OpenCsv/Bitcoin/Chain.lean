import OpenCsv.Cbf.Scan
import OpenCsv.Ffi.Hex
import OpenCsv.Lib.Call
import OpenCsv.Lib.Json

/-!
# The anchor chain over a Bitcoin node

The backend asks a node for the blocks above the last scanned one, in decoded form, and
keeps one entry per transaction with a 64-byte OP_RETURN output.  Occurrences are tested
on the record of an entry alone; the witness of a batch is not decoded.

The node's answers are whatever it says, and any of them may fail.  `RendersBlock` is
what the documentation of the node promises of a decoded block.

**Results.** `scanTx_of_renders`: on a faithfully decoded transaction the scanner finds
the anchor of the transaction, without its envelope.
-/

namespace OpenCsv

open Call

section Values

/-! Access to a JSON value; what is missing or of another type is `none`. -/

namespace Json

/-- `Value::get`: a repeated key keeps its last value. -/
def get (name : String) : Json → Option Json
  | .obj fields => (fields.reverse.find? (fun f => f.1 == name)).map Prod.snd
  | _ => none

def asStr : Json → Option Text
  | .str s => some s
  | _ => none

def asUnsigned : Json → Option UInt64
  | .num n => if n < 2 ^ 64 then some (UInt64.ofNat n) else none
  | _ => none

def asArray : Json → Option (List Json)
  | .arr elements => some elements
  | _ => none

end Json

end Values

section Networks

inductive Network where
  | mainnet
  | signet
  | regtest
deriving DecidableEq

/-- Human and config name. -/
def Network.name : Network → Text
  | .mainnet => Text.lit "mainnet"
  | .signet => Text.lit "signet"
  | .regtest => Text.lit "regtest"

/-- The network of a name; `main` is accepted as well. -/
def Network.parse (s : Text) : Option Network :=
  if s = Text.lit "mainnet" ∨ s = Text.lit "main" then some .mainnet
  else if s = Text.lit "signet" then some .signet
  else if s = Text.lit "regtest" then some .regtest
  else none

end Networks

/-- Failures of the backend. -/
inductive RpcError where
  /-- The call failed or its answer was not of the expected type. -/
  | rpc
  | malformed (message : Text)
deriving DecidableEq

section Hex

/-- White space at both ends, which `from_hex` trims. -/
def isSpace (b : UInt8) : Bool :=
  b == 0x20 || (0x09 ≤ b && b ≤ 0x0D)

def trim (bytes : List UInt8) : List UInt8 :=
  ((bytes.dropWhile isSpace).reverse.dropWhile isSpace).reverse

/-- Decode hex, odd lengths rejected. -/
def rpcFromHex (s : Text) : Except RpcError (List UInt8) :=
  let bytes := trim s.bytes
  if bytes.length % 2 ≠ 0 then
    .error (.malformed (Text.lit "odd-length hex (" ++ Text.ofNat bytes.length ++ Text.lit ")"))
  else
    (fromHexPairs 0 bytes).mapError RpcError.malformed

/-- Internal-order bytes of a display-order hash. -/
def hashFromRpc (hex : Text) : Except RpcError (Bytes 32) := do
  let bytes ← rpcFromHex hex
  let hash ← okOr (Bytes.tryFrom 32 bytes)
    (.malformed (Text.lit "hash " ++ hex ++ Text.lit " is " ++ Text.ofNat bytes.length ++
      Text.lit " bytes"))
  return hash.reverse

/-- Display-order hex of internal-order bytes. -/
def hashToRpc (hash : Bytes 32) : Text :=
  toHex hash.reverse.toList

/-- The payload of a script in hex. -/
def opReturnPayloadOfHex (hex : Text) : Option (Bytes 64) :=
  match rpcFromHex hex with
  | .ok script => opReturnPayload script
  | .error _ => none

end Hex

/-- An anchor of the index. -/
structure Entry where
  txid : Bytes 32
  location : AnchorLocation
  record : AnchorRecord
  ctx : Ctx
deriving DecidableEq

section Scanning

variable (sha256 : Sha256)

/-- The 64-byte payload of a decoded output that the node calls null data. -/
def outputPayload (output : Json) : Option (Bytes 64) :=
  let script := output.get "scriptPubKey"
  if (script.bind (Json.get "type")).bind Json.asStr ≠ some (Text.lit "nulldata") then
    none
  else
    ((script.bind (Json.get "hex")).bind Json.asStr).bind opReturnPayloadOfHex

/-- The anchor of a decoded transaction: its first 64-byte OP_RETURN output. -/
def scanTx (tx : Json) (height : UInt64) (position : ℕ) : Except RpcError (Option Entry) := do
  let txidHex ← okOr ((tx.get "txid").bind Json.asStr)
    (.malformed (Text.lit "scanned transaction has no txid"))
  match ((tx.get "vin").bind Json.asArray).bind List.head? with
  | none => return none
  | some funding =>
      match (funding.get "txid").bind Json.asStr, (funding.get "vout").bind Json.asUnsigned with
      | some prevTxid, some prevVout => do
          require (prevVout.toNat < 2 ^ 32)
            (.malformed (Text.lit "scanned vin vout overflows u32"))
          let prev ← hashFromRpc prevTxid
          match ((tx.get "vout").bind Json.asArray).bind (List.findSome? outputPayload) with
          | none => return none
          | some payload => do
              let txid ← hashFromRpc txidHex
              return some
                { txid := txid
                  location := ⟨height, UInt32.ofNat position⟩
                  record := AnchorRecord.fromBytes payload
                  ctx := fundingCtx sha256 ⟨prev, prevVout.toUInt32⟩ }
      -- A coinbase has no prevout.
      | _, _ => return none

end Scanning

/-- The backend's index. -/
structure BitcoinAnchorChain where
  startHeight : UInt64
  tip : UInt64
  scanned : Option (UInt64 × Bytes 32)
  entries : List Entry
  mempool : List Entry

/-- The node's answers during one call. -/
structure NodeView where
  blockCount : Except RpcError UInt64
  blockHash : UInt64 → Except RpcError Text
  block : Text → Except RpcError Json

namespace BitcoinAnchorChain

section Refresh

variable (sha256 : Sha256)
variable (node : NodeView)

/-- An index that was never refreshed. -/
def opened (startHeight tip : UInt64) : BitcoinAnchorChain where
  startHeight := startHeight
  tip := tip
  scanned := none
  entries := []
  mempool := []

/-- Add the anchors of a decoded block. -/
def scanBlock (block : Json) (height : UInt64) : Call RpcError BitcoinAnchorChain Unit := do
  let txs ← lift (okOr ((block.get "tx").bind Json.asArray)
    (.malformed (Text.lit "getblock: no tx array")))
  each txs.zipIdx (fun (tx, position) => do
    let entry ← lift (scanTx sha256 tx height position)
    modify (fun chain => { chain with entries := chain.entries ++ entry.toList }))

/-- Scan the next `count` heights; a failure keeps what was scanned before it. -/
def scanBlocks : ℕ → UInt64 → Call RpcError BitcoinAnchorChain Unit
  | 0, _ => pure ()
  | count + 1, height => do
      let hash ← lift (node.blockHash height)
      let block ← lift (node.block hash)
      scanBlock sha256 block height
      let hash ← lift (hashFromRpc hash)
      modify (fun chain => { chain with scanned := some (height, hash) })
      scanBlocks count (height + 1)

/-- A stored block that the node does not know any more drops the index. -/
def dropStale : Call RpcError BitcoinAnchorChain Unit := do
  let chain ← get
  match chain.scanned with
  | none => pure ()
  | some (height, hash) => do
      let actual ← lift (node.blockHash height)
      let actual ← lift (hashFromRpc actual)
      if actual ≠ hash then
        modify (fun chain => { chain with scanned := none, entries := [] })
      else
        pure ()

/-- The height to scan next. -/
def nextHeight (chain : BitcoinAnchorChain) : UInt64 :=
  match chain.scanned with
  | some (height, _) => height + 1
  | none => chain.startHeight

/-- Scan from the last scanned height to the current tip. -/
def refresh : Call RpcError BitcoinAnchorChain Unit := do
  let tip ← lift node.blockCount
  modify (fun chain => { chain with tip := tip })
  dropStale node
  let chain ← get
  let height := chain.nextHeight
  scanBlocks sha256 node (if height ≤ tip then (tip - height).toNat + 1 else 0) height
  modify (fun chain => { chain with
    mempool := chain.mempool.filter (fun m => !chain.entries.any (fun e => e.txid == m.txid)) })

end Refresh

section Occurrences

variable (sponge : Sponge)
variable (chain : BitcoinAnchorChain)

/-- Confirmed entries whose record binds the nullifier, in chain order. -/
def nullifierOccurrences (rawNf : Digest) : List AnchorLocation :=
  ((chain.entries.filter (fun e => e.record.wellFormed sponge e.ctx rawNf)).map
    Entry.location).insertionSort (fun a b => a.le b = true)

def firstNullifierOccurrence (rawNf : Digest) : Option AnchorLocation :=
  (chain.nullifierOccurrences sponge rawNf).head?

end Occurrences

end BitcoinAnchorChain

section Rendering

/-! What a node answers for a block, as far as the scanner reads it. -/

/-- Pushes only: every opcode is at most `OP_16` and its data is there. -/
def pushOnly : ℕ → List UInt8 → Bool
  | _, [] => true
  | 0, _ => false
  | fuel + 1, op :: rest =>
      if op ≤ 0x4B then
        op.toNat ≤ rest.length && pushOnly fuel (rest.drop op.toNat)
      else if op = 0x4C then
        match rest with
        | a :: data => a.toNat ≤ data.length && pushOnly fuel (data.drop a.toNat)
        | _ => false
      else if op = 0x4D then
        match rest with
        | a :: b :: data =>
            leNat [a, b] ≤ data.length && pushOnly fuel (data.drop (leNat [a, b]))
        | _ => false
      else if op = 0x4E then
        match rest with
        | a :: b :: c :: d :: data =>
            leNat [a, b, c, d] ≤ data.length && pushOnly fuel (data.drop (leNat [a, b, c, d]))
        | _ => false
      else
        op ≤ 0x60 && pushOnly fuel rest

/-- The node's script type for data outputs: `OP_RETURN` and then pushes only. -/
def isNullData (script : List UInt8) : Bool :=
  match script with
  | 0x6A :: rest => pushOnly rest.length rest
  | _ => false

variable (sha256 : Sha256)

/-- A decoded input names its prevout, or is the coinbase. -/
def RendersInput (tx : Transaction) (input : TxIn) (j : Json) : Prop :=
  if tx.isCoinbase then
    j.get "txid" = none
  else
    (j.get "txid").bind Json.asStr = some (hashToRpc input.prev.txid) ∧
      (j.get "vout").bind Json.asUnsigned = some input.prev.vout.toUInt64

/-- A decoded output has its script in hex, under the type of the script. -/
def RendersOutput (output : TxOut) (j : Json) : Prop :=
  ∃ script, j.get "scriptPubKey" = some script ∧
    (script.get "hex").bind Json.asStr = some (toHex output.scriptPubkey) ∧
      ((script.get "type").bind Json.asStr = some (Text.lit "nulldata") ↔
        isNullData output.scriptPubkey = true)

structure RendersTx (tx : Transaction) (j : Json) : Prop where
  txid : (j.get "txid").bind Json.asStr = some (hashToRpc (tx.txid sha256))
  vin : ∃ inputs, (j.get "vin").bind Json.asArray = some inputs ∧
    List.Forall₂ (RendersInput tx) tx.inputs inputs
  vout : ∃ outputs, (j.get "vout").bind Json.asArray = some outputs ∧
    List.Forall₂ RendersOutput tx.outputs outputs

def RendersBlock (block : Block) (j : Json) : Prop :=
  ∃ txs, (j.get "tx").bind Json.asArray = some txs ∧
    List.Forall₂ (RendersTx sha256) block.txs txs

end Rendering

section Decoding

/-! The decoded form of a block, for any block. -/

variable (sha256 : Sha256)

def TxIn.toRpc (coinbase : Bool) (input : TxIn) : Json :=
  if coinbase then
    .obj [("coinbase", .str (toHex input.scriptSig))]
  else
    .obj [("txid", .str (hashToRpc input.prev.txid)), ("vout", .num input.prev.vout.toNat)]

def TxOut.toRpc (output : TxOut) : Json :=
  .obj [("scriptPubKey", .obj [
    ("hex", .str (toHex output.scriptPubkey)),
    ("type", .str (Text.lit
      (if isNullData output.scriptPubkey then "nulldata" else "nonstandard")))])]

def Transaction.toRpc (tx : Transaction) : Json :=
  .obj [
    ("txid", .str (hashToRpc (tx.txid sha256))),
    ("vin", .arr (tx.inputs.map (TxIn.toRpc tx.isCoinbase))),
    ("vout", .arr (tx.outputs.map TxOut.toRpc))]

def Block.toRpc (block : Block) : Json :=
  .obj [("tx", .arr (block.txs.map (Transaction.toRpc sha256)))]

/-- Every block has a decoded form that the documentation allows. -/
theorem rendersBlock_toRpc
    (block : Block) :
    RendersBlock sha256 block (block.toRpc sha256) := by
  refine ⟨_, rfl, ?_⟩
  rw [List.forall₂_map_right_iff, List.forall₂_same]
  intro tx _
  refine ⟨rfl, ⟨_, rfl, ?_⟩, ⟨_, rfl, ?_⟩⟩
  · rw [List.forall₂_map_right_iff, List.forall₂_same]
    intro input _
    unfold RendersInput TxIn.toRpc
    split_ifs with hcoinbase
    · rfl
    · refine ⟨rfl, ?_⟩
      have hlt : input.prev.vout.toNat < 2 ^ 64 :=
        lt_trans input.prev.vout.toNat_lt (by decide)
      show (if input.prev.vout.toNat < 2 ^ 64 then
        some (UInt64.ofNat input.prev.vout.toNat) else none) = _
      rw [if_pos hlt]
      simp
  · rw [List.forall₂_map_right_iff, List.forall₂_same]
    intro output _
    refine ⟨_, rfl, rfl, ?_⟩
    show some (Text.lit _) = some (Text.lit "nulldata") ↔ _
    cases isNullData output.scriptPubkey with
    | false =>
        refine iff_of_false ?_ Bool.false_ne_true
        decide +kernel
    | true =>
        exact iff_of_true rfl rfl

end Decoding

section Reading

/-! What the scanner reads in a faithfully decoded block. -/

variable {sha256 : Sha256}

theorem hexPair_not_space
    (b : UInt8) :
    ∀ c ∈ hexPair b, isSpace c = false := by
  have h : (hexPair b).all (fun c => !isSpace c) = true := by
    refine forall_byte (p := fun b => (hexPair b).all (fun c => !isSpace c) = true) ?_ b
    decide +kernel
  simpa using h

/-- Nothing is trimmed where there is no white space. -/
theorem trim_of_not_space
    {bytes : List UInt8}
    (h : ∀ b ∈ bytes, isSpace b = false) :
    trim bytes = bytes := by
  have hdrop : ∀ l : List UInt8, (∀ b ∈ l, isSpace b = false) → l.dropWhile isSpace = l := by
    intro l hl
    cases l with
    | nil =>
        rfl
    | cons b l =>
        rw [List.dropWhile_cons_of_neg]
        rw [hl b List.mem_cons_self]
        exact Bool.false_ne_true
  rw [trim, hdrop bytes h, hdrop bytes.reverse, List.reverse_reverse]
  intro b hb
  exact h b (List.mem_reverse.mp hb)

/-- Bytes are read back from their hex. -/
theorem rpcFromHex_toHex
    (bytes : List UInt8) :
    rpcFromHex (toHex bytes) = .ok bytes := by
  have htrim : trim (toHex bytes).bytes = (toHex bytes).bytes := by
    refine trim_of_not_space ?_
    intro c hc
    obtain ⟨b, -, hb⟩ := List.mem_flatMap.mp hc
    exact hexPair_not_space b c hb
  have heven : (toHex bytes).bytes.length % 2 = 0 := by
    rw [toHex_length]
    omega
  have hpairs : fromHexPairs 0 (toHex bytes).bytes = .ok bytes :=
    fromHexPairs_flatMap bytes 0
  rw [rpcFromHex, htrim]
  simp [heven, hpairs, Except.mapError]

/-- A hash is read back from its display form. -/
theorem hashFromRpc_hashToRpc
    (hash : Bytes 32) :
    hashFromRpc (hashToRpc hash) = .ok hash := by
  have hread : Bytes.tryFrom 32 hash.reverse.toList = some hash.reverse := by
    rw [Bytes.tryFrom_eq_some_iff]
  have hback : hash.reverse.reverse = hash := by
    refine List.Vector.eq _ _ ?_
    simp
  rw [hashFromRpc, hashToRpc, rpcFromHex_toHex]
  simp only [bind, Except.bind, pure, Except.pure, okOr, hread, hback]

/-- Hex of a script has the payload of the script. -/
theorem opReturnPayloadOfHex_toHex
    (script : List UInt8) :
    opReturnPayloadOfHex (toHex script) = opReturnPayload script := by
  rw [opReturnPayloadOfHex, rpcFromHex_toHex]

/-- A script with a 64-byte payload is one the node calls null data. -/
theorem isNullData_of_opReturnPayload
    {script : List UInt8}
    {payload : Bytes 64}
    (h : opReturnPayload script = some payload) :
    isNullData script = true := by
  have hlength := payload.toList_length
  have hnil : payload.toList.drop 64 = [] := List.drop_of_length_le hlength.le
  unfold opReturnPayload at h
  split at h
  · obtain rfl := Bytes.tryFrom_eq_some_iff.mp h
    simp [isNullData, pushOnly, hlength, hnil]
  · obtain rfl := Bytes.tryFrom_eq_some_iff.mp h
    simp [isNullData, pushOnly, hlength, hnil]
  · obtain rfl := Bytes.tryFrom_eq_some_iff.mp h
    simp [isNullData, pushOnly, leNat, hlength, hnil]
  · cases h

/-- A decoded output has the payload of its script. -/
theorem outputPayload_of_renders
    {output : TxOut}
    {j : Json}
    (h : RendersOutput output j) :
    outputPayload j = opReturnPayload output.scriptPubkey := by
  obtain ⟨script, hscript, hhex, htype⟩ := h
  have hpayload : (((j.get "scriptPubKey").bind (Json.get "hex")).bind Json.asStr).bind
      opReturnPayloadOfHex = opReturnPayload output.scriptPubkey := by
    rw [hscript, Option.bind_some, hhex, Option.bind_some, opReturnPayloadOfHex_toHex]
  have htype' : ((j.get "scriptPubKey").bind (Json.get "type")).bind Json.asStr =
      some (Text.lit "nulldata") ↔ isNullData output.scriptPubkey = true := by
    rw [hscript, Option.bind_some, htype]
  by_cases hdata : isNullData output.scriptPubkey = true
  · simp only [outputPayload, htype'.mpr hdata, hpayload, ne_eq, not_true_eq_false, if_false]
  · have hnone : opReturnPayload output.scriptPubkey = none := by
      refine Option.eq_none_iff_forall_ne_some.mpr ?_
      intro payload hsome
      exact hdata (isNullData_of_opReturnPayload hsome)
    have hne : ((j.get "scriptPubKey").bind (Json.get "type")).bind Json.asStr ≠
        some (Text.lit "nulldata") := by
      intro heq
      exact hdata (htype'.mp heq)
    simp only [outputPayload, if_pos hne, hnone]

/-- The first payload of the outputs is the one the decoded outputs give. -/
theorem findSome?_outputPayload
    {outputs : List TxOut}
    {js : List Json}
    (h : List.Forall₂ RendersOutput outputs js) :
    js.findSome? outputPayload =
      outputs.findSome? (fun output => opReturnPayload output.scriptPubkey) := by
  induction h with
  | nil =>
      rfl
  | cons hhead _ ih =>
      rw [List.findSome?_cons, List.findSome?_cons, outputPayload_of_renders hhead, ih]

/-- What the backend keeps of an anchor transaction. -/
def AnchorTx.toEntry (t : AnchorTx) : Entry where
  txid := t.txid
  location := t.location
  record := t.record
  ctx := t.ctx

/-- The scanner finds the anchor of a faithfully decoded transaction. -/
theorem scanTx_of_renders
    {tx : Transaction}
    {j : Json}
    (h : RendersTx sha256 tx j)
    (height : UInt64)
    (position : ℕ) :
    scanTx sha256 j height position =
      .ok ((anchorOfTx sha256 height position tx).map AnchorTx.toEntry) := by
  obtain ⟨inputs, hvin, hinputs⟩ := h.vin
  obtain ⟨outputs, hvout, houtputs⟩ := h.vout
  have hpayload := findSome?_outputPayload houtputs
  unfold scanTx anchorOfTx
  simp only [h.txid, okOr, hvin, hvout, Option.bind_some, bind, Except.bind, pure, Except.pure]
  cases hinputs' : tx.inputs with
  | nil =>
      rw [hinputs'] at hinputs
      cases hinputs
      simp
  | cons funding rest =>
      rw [hinputs'] at hinputs
      obtain ⟨j₀, js, hfunding, -, rfl⟩ := List.forall₂_cons_left_iff.mp hinputs
      unfold RendersInput at hfunding
      by_cases hcoinbase : tx.isCoinbase = true
      · rw [if_pos hcoinbase] at hfunding
        simp [hfunding, hcoinbase]
      · rw [if_neg hcoinbase] at hfunding
        obtain ⟨htxid, hindex⟩ := hfunding
        have hfits : require (funding.prev.vout.toUInt64.toNat < 2 ^ 32)
            (RpcError.malformed (Text.lit "scanned vin vout overflows u32")) = .ok () := by
          rw [require_eq_ok_iff, decide_eq_true_eq]
          simpa using funding.prev.vout.toNat_lt
        simp only [List.head?_cons, htxid, hindex, hfits, hashFromRpc_hashToRpc, hpayload,
          hcoinbase, UInt32.toUInt32_toUInt64]
        cases tx.outputs.findSome? (fun output => opReturnPayload output.scriptPubkey) with
        | none =>
            rfl
        | some payload =>
            rfl

namespace BitcoinAnchorChain

/-- Scanning a faithfully decoded block adds its anchors, in block order. -/
theorem scanBlock_of_renders
    {block : Block}
    {j : Json}
    (h : RendersBlock sha256 block j)
    (height : UInt64)
    (chain : BitcoinAnchorChain) :
    scanBlock sha256 j height chain =
      .ok () { chain with
        entries := chain.entries ++ (anchorTxs sha256 block height).map AnchorTx.toEntry } := by
  obtain ⟨js, hjs, htxs⟩ := h
  rw [scanBlock, hjs]
  show each js.zipIdx _ chain = _
  clear hjs
  unfold anchorTxs
  generalize block.txs = txs at htxs ⊢
  generalize 0 = n
  induction htxs generalizing n chain with
  | nil =>
      simp [each, pure, EStateM.pure]
  | @cons tx j txs js hhead _ ih =>
      have hround : (do
          let entry ← lift (scanTx sha256 j height n)
          modify (fun chain : BitcoinAnchorChain =>
            { chain with entries := chain.entries ++ entry.toList })) chain =
          .ok () { chain with entries := chain.entries ++
            ((anchorOfTx sha256 height n tx).map AnchorTx.toEntry).toList } := by
        rw [lift_bind_apply, scanTx_of_renders hhead]
        rfl
      rw [List.zipIdx_cons, each, bind_apply]
      dsimp only
      rw [hround]
      dsimp only
      rw [ih, List.zipIdx_cons, List.filterMap_cons]
      cases anchorOfTx sha256 height n tx with
      | none =>
          simp
      | some t =>
          simp

end BitcoinAnchorChain

end Reading

end OpenCsv
