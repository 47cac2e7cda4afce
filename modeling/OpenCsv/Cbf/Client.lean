import OpenCsv.Cbf.Gcs
import OpenCsv.Cbf.HeaderChain

/-!
# The filter client

A client holds its connected peers, a header chain and the hashes of the filters of its
blocks.  A sync advances a copy of the header chain with every peer, adopts it if all
copies that came through end at the same tip, and then fetches the filter hashes above the
common part from every peer that is left.  The peers move out of the client for each of
the two rounds and only those that came through move back in.

Peers answer each request with anything or an error; a peer that does not answer keeps the
call waiting.  Reads and writes of cache files may fail.
-/

namespace OpenCsv

open Call

/-- A connected peer, by its address. -/
abbrev Peer := Text

/-- An answer to `getcfheaders`: the header before the range, and a hash per block. -/
abbrev CfAnswer := Except CbfError (Bytes 32 × List (Bytes 32))

/-- What a peer answers during one sync, request by request. -/
structure PeerAnswers where
  headers : List HeaderAnswer
  filters : List CfAnswer

/-- The text of an error. -/
def CbfError.display : CbfError → Text
  | .io what => Text.lit "i/o: " ++ what
  | .protocol what => Text.lit "p2p protocol: " ++ what
  | .consensus what => Text.lit "consensus validation: " ++ what
  | .filter what => Text.lit "compact filter: " ++ what
  | .noPeers what => Text.lit "no usable peers: " ++ what
  | .divergentPeers what => Text.lit "peers disagree: " ++ what
  | .invalidInput what => Text.lit "invalid input: " ++ what

/-- `[T]::join`. -/
def joinTexts (separator : Text) : List Text → Text
  | [] => Text.lit ""
  | [s] => s
  | s :: rest => s ++ separator ++ joinTexts separator rest

section Filters

variable (sha256 : Sha256)

/-- The hash of a serialized filter. -/
def filterHash (filter : List UInt8) : Bytes 32 :=
  sha256.double filter

/-- The filter header that follows `previous`. -/
def filterHeader (hash previous : Bytes 32) : Bytes 32 :=
  sha256.double (hash.toList ++ previous.toList)

def advanceFilterHeader (header : Bytes 32) (hashes : List (Bytes 32)) : Bytes 32 :=
  hashes.foldl (fun header hash => filterHeader sha256 hash header) header

/--
The filter hash per height.  `blocks` is not in the source: it records for which block
each hash was served.
-/
structure FilterHeaderChain where
  filterHashes : List (Bytes 32)
  blocks : List (Bytes 32)
deriving DecidableEq

namespace FilterHeaderChain

def len (filters : FilterHeaderChain) : ℕ :=
  filters.filterHashes.length

def truncate (filters : FilterHeaderChain) (n : ℕ) : FilterHeaderChain :=
  ⟨filters.filterHashes.take n, filters.blocks.take n⟩

/-- Extend with hashes that were served for blocks of a chain. -/
def extend (filters : FilterHeaderChain) (chain : HeaderChain) (hashes : List (Bytes 32)) :
    FilterHeaderChain :=
  ⟨filters.filterHashes ++ hashes,
    filters.blocks ++ (chain.hashes.drop filters.len).take hashes.length⟩

def filterHashAt (filters : FilterHeaderChain) (height : UInt64) : Option (Bytes 32) :=
  filters.filterHashes[height.toNat]?

/-- The header at a height, chained from the all-zero one. -/
def filterHeaderAt (filters : FilterHeaderChain) (height : ℕ) : Option (Bytes 32) :=
  if height < filters.len then
    some (advanceFilterHeader sha256 (Bytes.zero 32) (filters.filterHashes.take (height + 1)))
  else none

/-- Check a downloaded filter against the committed hash. -/
def verifyFilter (filters : FilterHeaderChain) (height : UInt64) (filter : List UInt8) :
    Except CbfError Unit := do
  let committed ← okOr (filters.filterHashAt height)
    (.filter (Text.lit "no filter hash synced for height " ++ Text.ofNat height.toNat))
  require (filterHash sha256 filter = committed)
    (.filter (Text.lit "filter for height " ++ Text.ofNat height.toNat ++
      Text.lit " does not match the committed filter hash"))

/-- Check one page of filter hashes. -/
def checkPage (start stop : ℕ) (expectedPrev : Bytes 32) (response : Bytes 32 × List (Bytes 32)) :
    Except CbfError Unit := do
  require (response.1 = expectedPrev)
    (.filter (Text.lit "filter-header linkage broken at height " ++ Text.ofNat start))
  require (response.2.length = stop - start + 1)
    (.filter (Text.lit "cfheaders returned " ++ Text.ofNat response.2.length ++
      Text.lit " hashes, expected " ++ Text.ofNat (stop - start + 1)))

/--
Fetch pages from `start` up to `stopHeight`.  An absent error means that the peer has not
answered yet.
-/
def fetchPages (chain : HeaderChain) (stopHeight : ℕ) (start : ℕ) (expectedPrev : Bytes 32)
    (out : List (Bytes 32)) : Call (Option CbfError) (List CfAnswer) (List (Bytes 32)) :=
  fun answers =>
    if start ≤ stopHeight then
      let stop := min (start + 1999) stopHeight
      match chain.hashes[stop]?, answers with
      | none, answers =>
          .error (some (.filter (Text.lit "no block hash at height " ++ Text.ofNat stop))) answers
      | some _, [] => .error none []
      | some _, .error e :: rest => .error (some e) rest
      | some _, .ok response :: rest =>
          match checkPage start stop expectedPrev response with
          | .error e => .error (some e) rest
          | .ok () =>
              fetchPages chain stopHeight (stop + 1)
                (advanceFilterHeader sha256 expectedPrev response.2) (out ++ response.2) rest
    else .ok out answers
termination_by structural answers => answers

/-- Fetch the hashes above those held, up to a height. -/
def fetchRange (filters : FilterHeaderChain) (chain : HeaderChain) (stopHeight : ℕ) :
    Call (Option CbfError) (List CfAnswer) (List (Bytes 32)) := do
  let start := filters.len
  let expectedPrev ← lift (
    if start = 0 then .ok (Bytes.zero 32)
    else okOr (filters.filterHeaderAt sha256 (start - 1))
      (some (.filter (Text.lit "no preceding filter header at height " ++
        Text.ofNat (start - 1)))))
  fetchPages sha256 chain stopHeight start expectedPrev []

/-- Have a peer attest the tail of the held hashes. -/
def reattestTail (filters : FilterHeaderChain) (chain : HeaderChain) (maxBlocks : ℕ) :
    Call (Option CbfError) (List CfAnswer) Unit := do
  if filters.filterHashes.isEmpty then return ()
  else do
    demand (maxBlocks ≠ 0) (some (.invalidInput
      (Text.lit "filter-cache re-attestation window must be nonzero")))
    let stop := filters.len - 1
    let start := stop + 1 - maxBlocks
    let fetched ← (filters.truncate start).fetchRange sha256 chain stop
    demand (fetched = filters.filterHashes.drop start) (some (.filter
      (Text.lit "peer filter-hash tail differs from cached chain at height " ++
        Text.ofNat start)))

end FilterHeaderChain

end Filters

/-- How the task of a peer ends. -/
inductive TaskEnd (α : Type) where
  | done (a : α)
  | failed (e : CbfError)
  | panicked
  /-- The peer has not answered yet. -/
  | waiting

namespace TaskEnd

variable {α : Type}

def result? : TaskEnd α → Option α
  | .done a => some a
  | _ => none

def isWaiting : TaskEnd α → Bool
  | .waiting => true
  | _ => false

/-- The line about a task that failed. -/
def failure? (what : String) (peer : Peer) : TaskEnd α → Option Text
  | .failed e => some (peer ++ Text.lit ": " ++ e.display)
  | .panicked => some (peer ++ Text.lit ": " ++ Text.lit what ++ Text.lit " worker panicked")
  | _ => none

end TaskEnd

/-- Whether the two cache files can be written at the end of a sync. -/
structure Saves where
  chain : Except CbfError Unit
  filters : Except CbfError Unit

/-- The client: its peers and its two chains. -/
structure Client where
  peers : List Peer
  chain : HeaderChain
  filterChain : FilterHeaderChain

namespace HeaderChain

/-- Number of identical headers at the start of both chains. -/
def commonPrefixLen (left right : HeaderChain) : ℕ :=
  ((left.hashes.zip right.hashes).takeWhile (fun p => p.1 = p.2)).length

/-- Height, hash and work of the tip. -/
def tip (chain : HeaderChain) : Option UInt64 × Option (Bytes 32) × BitVec 128 :=
  (chain.tipHeight, chain.tipHeight.bind chain.hashAt, chain.tipWork)

/-- `{tip:?}`. -/
def tipText (chain : HeaderChain) : Text :=
  let height := match chain.tip.1 with
    | some h => Text.lit "Some(" ++ Text.ofNat h.toNat ++ Text.lit ")"
    | none => Text.lit "None"
  let hash := match chain.tip.2.1 with
    | some hash =>
        Text.lit "Some([" ++
          joinTexts (Text.lit ", ") (hash.toList.map (fun b => Text.ofNat b.toNat)) ++
          Text.lit "])"
    | none => Text.lit "None"
  Text.lit "(" ++ height ++ Text.lit ", " ++ hash ++ Text.lit ", " ++
    Text.ofNat chain.tip.2.2.toNat ++ Text.lit ")"

end HeaderChain

namespace Client

section Syncing

variable (profile : Profile)
variable (sha256 : Sha256)

def filterCacheReattestBlocks : ℕ := 144

/-- A peer advances a copy of the chain. -/
def headerTask (chain : HeaderChain) (answers : PeerAnswers) : TaskEnd HeaderChain :=
  match HeaderChain.sync profile sha256 answers.headers chain with
  | .ok (some _) candidate => .done candidate
  | .ok none _ => .waiting
  | .error (.error e) _ => .failed e
  | .error .panic _ => .panicked

/-- A peer attests the cached tail and fetches the hashes above. -/
def filterTask (revalidate : Bool) (chain : HeaderChain) (filters : FilterHeaderChain)
    (stop : ℕ) (answers : PeerAnswers) : TaskEnd (List (Bytes 32)) :=
  let task : Call (Option CbfError) (List CfAnswer) (List (Bytes 32)) := do
    if revalidate ∧ filters.filterHashes ≠ [] then
      filters.reattestTail sha256 chain filterCacheReattestBlocks
    filters.fetchRange sha256 chain stop
  match answer task answers.filters with
  | .ok fetched => .done fetched
  | .error (some e) => .failed e
  | .error none => .waiting

/-- What the filter round has collected: a reference and the peers that agree with it. -/
structure Collected where
  reference : Option (List (Bytes 32))
  peers : List Peer
  failures : List Text

/-- Join the filter tasks in order; the first answer that differs ends the sync. -/
def joinFilters (stop : ℕ) : Collected → List (Peer × TaskEnd (List (Bytes 32))) →
    Except (Option (Stop CbfError)) Collected
  | collected, [] => .ok collected
  | collected, (peer, task) :: tasks =>
      match task with
      | .waiting => .error none
      | .failed _ | .panicked =>
          joinFilters stop
            { collected with
              failures := collected.failures ++ (task.failure? "filter" peer).toList } tasks
      | .done fetched =>
          match collected.reference with
          | none =>
              joinFilters stop
                { collected with reference := some fetched, peers := collected.peers ++ [peer] }
                tasks
          | some expected =>
              if expected ≠ fetched then
                .error (some (.error (.divergentPeers
                  (Text.lit "filter-header chains differ below height " ++ Text.ofNat stop))))
              else
                joinFilters stop { collected with peers := collected.peers ++ [peer] } tasks

/-- The candidates of the header round, in the order of the peers. -/
def candidates (client : Client) (answers : Peer → PeerAnswers) : List (Peer × HeaderChain) :=
  client.peers.filterMap (fun peer =>
    (headerTask profile sha256 client.chain (answers peer)).result?.map (peer, ·))

/-- The lines about header tasks that failed. -/
def headerFailures (client : Client) (answers : Peer → PeerAnswers) : List Text :=
  client.peers.filterMap (fun peer =>
    (headerTask profile sha256 client.chain (answers peer)).failure? "header" peer)

/--
Sync headers and filter hashes with every peer.  An absent error means that the call is
still waiting for a peer.
-/
def syncInner (revalidate : Bool) (answers : Peer → PeerAnswers) (saves : Saves) :
    Call (Option (Stop CbfError)) Client Unit := do
  let client ← get
  set { client with peers := [] }
  demand (!client.peers.any (fun peer =>
    (headerTask profile sha256 client.chain (answers peer)).isWaiting)) none
  match client.candidates profile sha256 answers with
  | [] =>
      throw (some (.error (.noPeers
        (Text.lit "no peer completed header synchronization: " ++
          joinTexts (Text.lit "; ") (client.headerFailures profile sha256 answers)))))
  | (peer, agreed) :: rest => do
      demand (rest.all (fun c => c.2.tip = agreed.tip)) (some (.error (.divergentPeers
        (Text.lit "header tips: " ++ joinTexts (Text.lit ", ")
          (((peer, agreed) :: rest).map (fun c => c.1 ++ Text.lit " -> " ++ c.2.tipText))))))
      let headerPeers := peer :: rest.map Prod.fst
      let filters := client.filterChain.truncate (client.chain.commonPrefixLen agreed)
      set ({ peers := headerPeers, chain := agreed, filterChain := filters } : Client)
      let tip ← lift (okOr agreed.tipHeight (some .panic))
      let stop := tip.toNat
      set ({ peers := [], chain := agreed, filterChain := filters } : Client)
      let tasks := headerPeers.map (fun peer =>
        (peer, filterTask sha256 revalidate agreed filters stop (answers peer)))
      let collected ← lift (joinFilters stop ⟨none, [], []⟩ tasks)
      demand (!collected.peers.isEmpty) (some (.error (.noPeers
        (Text.lit "no peer completed filter-header synchronization: " ++
          joinTexts (Text.lit "; ") collected.failures))))
      set ({ peers := collected.peers
             chain := agreed
             filterChain := match collected.reference with
               | some hashes => filters.extend agreed hashes
               | none => filters } : Client)
      lift (saves.chain.mapError (fun e => some (.error e)))
      lift (saves.filters.mapError (fun e => some (.error e)))

/-- Resync headers and filter headers. -/
def sync (answers : Peer → PeerAnswers) (saves : Saves) :
    Call (Option (Stop CbfError)) Client Unit :=
  syncInner profile sha256 false answers saves

end Syncing

/-- Why a claimed anchor is not present. -/
inductive NotPresentReason where
  | aboveTip (height tip : UInt64)
  | positionOutOfRange (position txCount : UInt32)
  | txidMismatch (claimed actual : Bytes 32)
  | recordNotInTx
deriving DecidableEq

inductive AnchorVerdict where
  | confirmed (blockHash : Bytes 32) (ctx : Ctx) (confirmations : UInt64) (filterMatched : Bool)
  | notPresent (reason : NotPresentReason)
  | insufficientConfirmations (have_ required : UInt64)
deriving DecidableEq

/-- What disk and peers answer to a query. -/
structure World where
  cached : UInt64 → Except CbfError (Option (List UInt8))
  saved : Except CbfError Unit
  cfilter : Peer → UInt32 → Bytes 32 → Except CbfError (List UInt8)
  block : Peer → Bytes 32 → Except CbfError Block

section Queries

variable (profile : Profile)
variable (sha256 : Sha256)
variable (client : Client)
variable (world : World)

/-- A block of a peer, checked against the hash that was asked for. -/
def getBlock (peer : Peer) (blockHash : Bytes 32) : Except CbfError Block := do
  let block ← world.block peer blockHash
  require (block.header.hash sha256 = blockHash)
    (.protocol (Text.lit "peer " ++ peer ++ Text.lit " sent a block that hashes differently"))
  return block

/-- Fetch a block from the first peer that has it. -/
def fetchFrom (blockHash : Bytes 32) : (lastErr : Option CbfError) → List Peer →
    Except (Stop CbfError) Block
  | some e, [] => .error (.error e)
  | none, [] => .error .panic
  | _, peer :: peers =>
      match getBlock sha256 world peer blockHash with
      | .ok block => .ok block
      | .error e => fetchFrom blockHash (some e) peers

def fetchBlock (blockHash : Bytes 32) : Except (Stop CbfError) Block :=
  fetchFrom sha256 world blockHash none client.peers

/-- Fetch a filter from the first peer that has a valid one. -/
def filterFrom (height : UInt64) (blockHash : Bytes 32) : (lastErr : Option CbfError) →
    List Peer → Except CbfError (List UInt8)
  | lastErr, [] => .error (lastErr.getD
      (.noPeers (Text.lit "no peer supplied filter at height " ++ Text.ofNat height.toNat)))
  | _, peer :: peers =>
      match world.cfilter peer height.toUInt32 blockHash with
      | .error e => filterFrom height blockHash (some e) peers
      | .ok bytes =>
          match client.filterChain.verifyFilter sha256 height bytes with
          | .error e => filterFrom height blockHash (some e) peers
          | .ok () => world.saved.map (fun _ => bytes)

/-- The verified filter of a block, from the cache or from a peer. -/
def filterAt (height : UInt64) : Except CbfError (List UInt8) :=
  let fromPeers := fun lastErr => do
    let blockHash ← okOr (client.chain.hashAt height)
      (.filter (Text.lit "no block at height " ++ Text.ofNat height.toNat))
    filterFrom sha256 client world height blockHash lastErr client.peers
  match world.cached height with
  | .error e => fromPeers (some e)
  | .ok none => fromPeers none
  | .ok (some bytes) =>
      match client.filterChain.verifyFilter sha256 height bytes with
      | .ok () => .ok bytes
      | .error e => fromPeers (some e)

/-- Does the filter of a block match an item? -/
def filterMatches (height : UInt64) (item : List UInt8) : Except (Stop CbfError) Bool := do
  let bytes ← (filterAt sha256 client world height).mapError .error
  let blockHash ← okOr (client.chain.hashAt height) .panic
  let filter ← GcsFilter.parse bytes
  filter.matchesItem profile (filterKey blockHash) item

/-- Verify a claimed anchor at its claimed location. -/
def verifyAnchor (anchor : AnchorRecord) (location : AnchorLocation) (txid : Bytes 32)
    (required : UInt64) : Except (Stop CbfError) AnchorVerdict := do
  require (location.height ≠ 0) (.error (.invalidInput (Text.lit
    "height 0 is the mempool sentinel / genesis: anchors live in mined blocks")))
  let tip ← okOr client.chain.tipHeight .panic
  if location.height > tip then
    return .notPresent (.aboveTip location.height tip)
  else do
    let confirmations := tip - location.height + 1
    let blockHash ← okOr (client.chain.hashAt location.height) .panic
    let filterMatched ← filterMatches profile sha256 client world location.height
      (anchorScript anchor.toBytes)
    let block ← fetchBlock sha256 client world blockHash
    let root ← okOr (block.computeMerkleRoot sha256) .panic
    require (root = block.header.merkleRoot) (.error (.consensus
      (Text.lit "block " ++ hashToRpc blockHash ++
        Text.lit " merkle root does not match its header")))
    match block.txs[location.position.toNat]? with
    | none =>
        return .notPresent (.positionOutOfRange location.position
          (UInt32.ofNat block.txs.length))
    | some tx =>
        if tx.txid sha256 ≠ txid then
          return .notPresent (.txidMismatch txid (tx.txid sha256))
        else if !tx.outputs.any
            (fun o => opReturnPayload o.scriptPubkey = some anchor.toBytes) then
          return .notPresent .recordNotInTx
        else do
          let fundingInput ← okOr tx.inputs.head?
            (.error (.protocol (Text.lit "anchor transaction has no inputs")))
          if tx.isCoinbase then
            return .notPresent .recordNotInTx
          else if confirmations < required then
            return .insufficientConfirmations confirmations required
          else
            return .confirmed blockHash (fundingCtx sha256 fundingInput.prev) confirmations
              filterMatched

end Queries

end Client

end OpenCsv
