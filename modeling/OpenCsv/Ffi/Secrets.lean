import OpenCsv.Ffi.WalletOps

/-!
# The persisted secrets

Owner keys, issuers and pinned assets are what the host persists; coins are
rebuilt by replaying consignments.  Every operation but the creation of keys and
issuers and the verification of a consignment leaves this part of the wallet
alone (`apply_identity`).

**Results.** A wallet whose pinned currency codes are valid UTF-8 opens again with
the same keys, issuers and assets (`openSecrets_secretsJson`), and every run in
which each accepted consignment has a valid code stays in such wallets
(`secrets_survive_restart`).  The genesis of a consignment is chosen by its
sender, so the condition is not idle: `Sample.hostile_code_unreadable`.
-/

namespace OpenCsv

namespace MemWallet

variable {π : Type}
variable {env : WalletEnv π}

section Frame

/-- The persisted part of a wallet. -/
def identity (w : MemWallet) : List OwnerSecret × List IssuerRecord × List AssetGenesis :=
  (w.keys, w.issuers, w.assets)

@[simp] theorem identity_pushPending
    (w : MemWallet)
    (p : Pending)
    (record : AnchorRecord)
    (ctx : Ctx) :
    (w.pushPending p record ctx).2.identity = w.identity :=
  rfl

theorem identity_proveCall
    {w w' : MemWallet}
    {op : Op}
    {proved : Proved}
    (h : w.proveCall env op = some (.ok (proved, w'))) :
    w'.identity = w.identity := by
  obtain ⟨p, record, ctx, hpush, -⟩ := proveCall_spec h
  have hw : w' = (w.pushPending p record ctx).2 := by
    rw [hpush]
  rw [hw, identity_pushPending]

theorem identity_creditCoins
    (call : VerifyCall)
    (consignment : Consignment)
    (coins : List Coin)
    (state : CreditState) :
    (creditCoins env call consignment coins state).1.wallet.identity =
      state.wallet.identity := by
  induction coins generalizing state with
  | nil =>
      rfl
  | cons coin coins ih =>
      rw [creditCoins]
      split
      · rfl
      · rw [ih]
        rfl

theorem identity_markSpent
    (coinIds : List Text)
    (w : MemWallet) :
    (w.markSpent env coinIds).1.identity = w.identity := by
  induction coinIds generalizing w with
  | nil =>
      rfl
  | cons id ids ih =>
      rw [markSpent]
      split
      · rfl
      · rw [ih]
        rfl

/-- A verification changes the persisted part by pinning an accepted genesis at most. -/
theorem identity_verifyWithProvenance
    (w : MemWallet)
    (call : VerifyCall) :
    (w.verifyWithProvenance env call).1.identity = w.identity ∨
      ∃ consignment accepted, env.decodeConsignment call.blob = .ok consignment ∧
        w.acceptConsignment env call consignment = .ok accepted ∧
        (w.verifyWithProvenance env call).1.identity =
          (w.pinAux env consignment.aux).identity := by
  unfold verifyWithProvenance
  split
  · exact Or.inl rfl
  · rename_i consignment hdecode
    split
    · exact Or.inl rfl
    · rename_i accepted haccept
      refine Or.inr ⟨consignment, accepted, hdecode, haccept, ?_⟩
      have hcredit : (creditCoins env call consignment accepted.coins
          ⟨w.pinAux env consignment.aux, [], []⟩).1.wallet.identity =
            (w.pinAux env consignment.aux).identity :=
        identity_creditCoins call consignment accepted.coins _
      split
      · rename_i state e hstate
        rw [hstate] at hcredit
        exact hcredit
      · rename_i state u hstate
        rw [hstate] at hcredit
        exact hcredit

/-- The operations that touch the persisted part. -/
def Op.touchesIdentity : Op → Bool
  | .keygen .. | .initIssuer .. | .initIssuerFromSeed .. | .verify .. => true
  | _ => false

/-- Every other operation leaves the persisted part alone. -/
theorem apply_identity
    {op : Op}
    (h : op.touchesIdentity = false)
    (w : MemWallet) :
    (w.apply env op).identity = w.identity := by
  have hprove : ∀ op' : Op, ((w.proveCall env op').elim w w.afterCall).identity =
      w.identity := by
    intro op'
    cases hcall : w.proveCall env op' with
    | none =>
        rfl
    | some result =>
        cases result with
        | error e =>
            rfl
        | ok result =>
            exact identity_proveCall hcall
  cases op with
  | keygen | initIssuer | initIssuerFromSeed | verify =>
      cases h
  | proveMint | proveTransfer | proveTransferAmount | proveRedeem =>
      exact hprove _
  | importPending text =>
      simp only [apply, importPending]
      cases readPending env text with
      | error e => rfl
      | ok p => rfl
  | cancelPending pendingId =>
      rfl
  | finalize pendingId anchorRef =>
      simp only [apply, finalize]
      cases w.findPending pendingId "unknown" with
      | error e => rfl
      | ok p => rfl
  | freezeUnconfirmedAnchor anchorTxid =>
      rfl
  | markSpent coinIds =>
      exact identity_markSpent coinIds w
  | markConfirmedSpentNullifiers nullifiers =>
      obtain ⟨ids, hids⟩ := markConfirmedSpentNullifiers_eq env w nullifiers
      simp only [apply, hids]
      exact identity_markSpent ids w

end Frame

section Reopen

/-- Pinned assets have ids of their own and readable codes, and cover the issuers. -/
structure Persistable (env : WalletEnv π) (w : MemWallet) : Prop where
  codes : ∀ g ∈ w.assets, ValidUtf8 g.currencyCode.toList
  issuerCodes : ∀ i ∈ w.issuers, ValidUtf8 i.genesis.currencyCode.toList
  nodup : (w.assets.map (AssetGenesis.assetId env.sponge)).Nodup
  issuersPinned : ∀ i ∈ w.issuers,
    i.genesis.assetId env.sponge ∈ w.assets.map (AssetGenesis.assetId env.sponge)

theorem Persistable.of_identity
    {w w' : MemWallet}
    (h : Persistable env w)
    (hidentity : w'.identity = w.identity) :
    Persistable env w' := by
  simp only [identity, Prod.mk.injEq] at hidentity
  obtain ⟨-, hissuers, hassets⟩ := hidentity
  refine ⟨?_, ?_, ?_, ?_⟩
  · rw [hassets]
    exact h.codes
  · rw [hissuers]
    exact h.issuerCodes
  · rw [hassets]
    exact h.nodup
  · rw [hissuers, hassets]
    exact h.issuersPinned

/-- An asset whose id is pinned is not pinned again. -/
theorem pinAsset_of_mem
    {w : MemWallet}
    {g : AssetGenesis}
    (h : g.assetId env.sponge ∈ w.assets.map (AssetGenesis.assetId env.sponge)) :
    w.pinAsset env g = w := by
  obtain ⟨g', hg', heq⟩ := List.mem_map.mp h
  have hany : w.assets.any (fun g' => g'.assetId env.sponge == g.assetId env.sponge) = true :=
    List.any_eq_true.mpr ⟨g', hg', beq_iff_eq.mpr heq⟩
  rw [pinAsset, if_pos hany]

theorem pinAsset_of_not_mem
    {w : MemWallet}
    {g : AssetGenesis}
    (h : g.assetId env.sponge ∉ w.assets.map (AssetGenesis.assetId env.sponge)) :
    w.pinAsset env g = { w with assets := w.assets ++ [g] } := by
  have hany : ¬ w.assets.any (fun g' => g'.assetId env.sponge == g.assetId env.sponge) =
      true := by
    intro hcontra
    obtain ⟨g', hg', heq⟩ := List.any_eq_true.mp hcontra
    exact h (List.mem_map.mpr ⟨g', hg', beq_iff_eq.mp heq⟩)
  rw [pinAsset, if_neg hany]

/-- New assets are pinned in order. -/
theorem foldl_pinAsset
    {gs : List AssetGenesis}
    {w : MemWallet}
    (h : ((w.assets ++ gs).map (AssetGenesis.assetId env.sponge)).Nodup) :
    gs.foldl (pinAsset env) w = { w with assets := w.assets ++ gs } := by
  induction gs generalizing w with
  | nil =>
      simp
  | cons g gs ih =>
      have hfresh : g.assetId env.sponge ∉
          w.assets.map (AssetGenesis.assetId env.sponge) := by
        rw [List.map_append, List.map_cons] at h
        intro hmem
        exact (List.disjoint_of_nodup_append h) hmem List.mem_cons_self
      rw [List.foldl_cons, pinAsset_of_not_mem hfresh, ih]
      · simp
      · simpa using h

/-- Issuers whose assets are pinned change nothing. -/
theorem foldl_pinIssuers
    {issuers : List IssuerRecord}
    {w : MemWallet}
    (h : ∀ i ∈ issuers,
      i.genesis.assetId env.sponge ∈ w.assets.map (AssetGenesis.assetId env.sponge)) :
    issuers.foldl (fun w issuer => w.pinAsset env issuer.genesis) w = w := by
  induction issuers with
  | nil =>
      rfl
  | cons i issuers ih =>
      rw [List.foldl_cons, pinAsset_of_mem (h i List.mem_cons_self)]
      exact ih (fun i' hi' => h i' (List.mem_cons_of_mem i hi'))

/-- A persistable wallet opens again with its keys, issuers and assets. -/
theorem openSecrets_secretsJson
    {w : MemWallet}
    (h : Persistable env w) :
    openSecrets env w.secretsJson =
      .ok { empty with keys := w.keys, issuers := w.issuers, assets := w.assets } := by
  have hkeys : (w.keys.map (fun k => toHex k.digest.bytes.toList)).mapM ownerSecretFromHex =
      .ok w.keys := by
    apply mapM_map_eq_ok
    intro k _
    rw [ownerSecretFromHex, fromHexArray_toHex]
    rfl
  have hissuers : (w.issuers.map (fun i =>
      ({ isk := toHex i.isk.toList, genesis := genesisToJson i.genesis } : IssuerJson))).mapM
        issuerFromJson = .ok w.issuers := by
    apply mapM_map_eq_ok
    intro i hi
    have hgenesis := genesisFromJson_genesisToJson_iff.mpr (h.issuerCodes i hi)
    simp [issuerFromJson, hgenesis, bind, Except.bind, pure, Except.pure]
  have hassets : (w.assets.map genesisToJson).mapM genesisFromJson = .ok w.assets := by
    apply mapM_map_eq_ok
    intro g hg
    exact genesisFromJson_genesisToJson_iff.mpr (h.codes g hg)
  have hpinned : w.assets.foldl (pinAsset env)
      { empty with keys := w.keys, issuers := w.issuers } =
        { empty with keys := w.keys, issuers := w.issuers, assets := w.assets } :=
    foldl_pinAsset (by simpa [empty] using h.nodup)
  simp only [openSecrets, secretsJson, hkeys, hissuers, hassets, bind, Except.bind, pure,
    Except.pure, ensure, beq_self_eq_true, if_true]
  rw [hpinned, foldl_pinIssuers]
  exact h.issuersPinned

end Reopen

section Runs

/-- A code read from a text is valid. -/
theorem validUtf8_of_parseCurrencyCode
    {text : Text}
    {code : Bytes 3}
    (h : parseCurrencyCode text = .ok code) :
    ValidUtf8 code.toList := by
  rw [parseCurrencyCode, okOr_eq_ok_iff, Bytes.tryFrom_eq_some_iff] at h
  rw [← h]
  exact text.valid

theorem validUtf8_of_genesisFromJson
    {j : GenesisJson}
    {g : AssetGenesis}
    (h : genesisFromJson j = .ok g) :
    ValidUtf8 g.currencyCode.toList := by
  simp only [genesisFromJson, except_bind_eq_ok_iff, pure, Except.pure, Except.ok.injEq] at h
  obtain ⟨code, hcode, -, -, -, -, rfl⟩ := h
  exact validUtf8_of_parseCurrencyCode hcode

/-- The two conditions on pinned assets that pinning keeps. -/
def Pinned (env : WalletEnv π) (w : MemWallet) : Prop :=
  (∀ g ∈ w.assets, ValidUtf8 g.currencyCode.toList) ∧
    (w.assets.map (AssetGenesis.assetId env.sponge)).Nodup

/-- Pinning a readable genesis keeps the assets, adds its id and touches nothing else. -/
theorem pinAsset_spec
    {w : MemWallet}
    {g : AssetGenesis}
    (h : Pinned env w)
    (hg : ValidUtf8 g.currencyCode.toList) :
    Pinned env (w.pinAsset env g) ∧ w.assets ⊆ (w.pinAsset env g).assets ∧
      g.assetId env.sponge ∈ (w.pinAsset env g).assets.map (AssetGenesis.assetId env.sponge) ∧
      (w.pinAsset env g).issuers = w.issuers := by
  by_cases hmem : g.assetId env.sponge ∈ w.assets.map (AssetGenesis.assetId env.sponge)
  · rw [pinAsset_of_mem hmem]
    exact ⟨h, List.Subset.refl _, hmem, rfl⟩
  · rw [pinAsset_of_not_mem hmem]
    refine ⟨⟨?_, ?_⟩, List.subset_append_left _ _, ?_, rfl⟩
    · intro g' hg'
      rcases List.mem_append.mp hg' with hg' | hg'
      · exact h.1 g' hg'
      · rw [List.mem_singleton.mp hg']
        exact hg
    · simp only [List.map_append, List.map_cons, List.map_nil]
      exact h.2.append (List.nodup_singleton _) (by simpa using hmem)
    · simp

/-- Pinning a list of readable geneses. -/
theorem foldl_pinAsset_spec
    {gs : List AssetGenesis}
    {w : MemWallet}
    (h : Pinned env w)
    (hgs : ∀ g ∈ gs, ValidUtf8 g.currencyCode.toList) :
    Pinned env (gs.foldl (pinAsset env) w) ∧ w.assets ⊆ (gs.foldl (pinAsset env) w).assets ∧
      (∀ g ∈ gs, g.assetId env.sponge ∈
        (gs.foldl (pinAsset env) w).assets.map (AssetGenesis.assetId env.sponge)) ∧
      (gs.foldl (pinAsset env) w).issuers = w.issuers := by
  induction gs generalizing w with
  | nil =>
      exact ⟨h, List.Subset.refl _, by simp, rfl⟩
  | cons g gs ih =>
      obtain ⟨hpinned, hsubset, hmem, hissuers⟩ := pinAsset_spec h (hgs g List.mem_cons_self)
      obtain ⟨hpinned', hsubset', hmem', hissuers'⟩ :=
        ih hpinned (fun g' hg' => hgs g' (List.mem_cons_of_mem g hg'))
      refine ⟨hpinned', List.Subset.trans hsubset hsubset', ?_, hissuers'.trans hissuers⟩
      intro g' hg'
      rcases List.mem_cons.mp hg' with rfl | hg'
      · exact List.map_subset _ hsubset' hmem
      · exact hmem' g' hg'

/-- Adding a readable issuer and its asset. -/
theorem Persistable.addIssuer
    {w : MemWallet}
    {seed : Bytes 32}
    {g : AssetGenesis}
    (h : Persistable env w)
    (hg : ValidUtf8 g.currencyCode.toList) :
    Persistable env
      { w.pinAsset env g with issuers := (w.pinAsset env g).issuers ++ [⟨seed, g⟩] } := by
  obtain ⟨hpinned, hsubset, hmem, hissuers⟩ := pinAsset_spec ⟨h.codes, h.nodup⟩ hg
  refine ⟨hpinned.1, ?_, hpinned.2, ?_⟩
  · intro i hi
    rw [hissuers] at hi
    rcases List.mem_append.mp hi with hi | hi
    · exact h.issuerCodes i hi
    · rw [List.mem_singleton.mp hi]
      exact hg
  · intro i hi
    rw [hissuers] at hi
    rcases List.mem_append.mp hi with hi | hi
    · exact List.map_subset _ hsubset (h.issuersPinned i hi)
    · rw [List.mem_singleton.mp hi]
      exact hmem

theorem Persistable.pinAux
    {w : MemWallet}
    {aux : Option AssetGenesis}
    (h : Persistable env w)
    (haux : ∀ g, aux = some g → ValidUtf8 g.currencyCode.toList) :
    Persistable env (w.pinAux env aux) := by
  cases aux with
  | none =>
      exact h
  | some g =>
      obtain ⟨hpinned, hsubset, -, hissuers⟩ := pinAsset_spec ⟨h.codes, h.nodup⟩ (haux g rfl)
      refine ⟨hpinned.1, ?_, hpinned.2, ?_⟩
      · intro i hi
        exact h.issuerCodes i (hissuers ▸ hi)
      · intro i hi
        exact List.map_subset _ hsubset (h.issuersPinned i (hissuers ▸ hi))

/-- Opened wallets are persistable. -/
theorem persistable_of_openSecrets
    {secrets : SecretsJson}
    {w : MemWallet}
    (h : openSecrets env secrets = .ok w) :
    Persistable env w := by
  simp only [openSecrets, except_bind_eq_ok_iff, pure, Except.pure, Except.ok.injEq] at h
  obtain ⟨-, -, keys, -, issuers, hissuers, assets, hassets, rfl⟩ := h
  have hassetCodes : ∀ g ∈ assets, ValidUtf8 g.currencyCode.toList := by
    intro g hg
    obtain ⟨j, -, hj⟩ := exists_of_mem_of_mapM_eq_ok hassets hg
    exact validUtf8_of_genesisFromJson hj
  have hissuerCodes : ∀ i ∈ issuers, ValidUtf8 i.genesis.currencyCode.toList := by
    intro i hi
    obtain ⟨j, -, hj⟩ := exists_of_mem_of_mapM_eq_ok hissuers hi
    simp only [issuerFromJson, except_bind_eq_ok_iff, pure, Except.pure, Except.ok.injEq] at hj
    obtain ⟨isk, -, genesis, hgenesis, rfl⟩ := hj
    exact validUtf8_of_genesisFromJson hgenesis
  have hempty : Pinned env { empty with keys := keys, issuers := issuers } := by
    simp [Pinned, empty]
  obtain ⟨hpinned, -, -, hissuers₁⟩ := foldl_pinAsset_spec hempty hassetCodes
  have hgeneses : ∀ g ∈ issuers.map IssuerRecord.genesis, ValidUtf8 g.currencyCode.toList := by
    intro g hg
    obtain ⟨i, hi, rfl⟩ := List.mem_map.mp hg
    exact hissuerCodes i hi
  obtain ⟨hpinned', -, hmem, hissuers₂⟩ := foldl_pinAsset_spec hpinned hgeneses
  rw [List.foldl_map] at hpinned' hmem hissuers₂
  have hkept := hissuers₂.trans hissuers₁
  refine ⟨hpinned'.1, ?_, hpinned'.2, ?_⟩
  · intro i hi
    rw [hkept] at hi
    exact hissuerCodes i hi
  · intro i hi
    rw [hkept] at hi
    exact hmem i.genesis (List.mem_map_of_mem hi)

/-- The condition on a step: the genesis of an accepted consignment has a readable code. -/
def CodesReadable (env : WalletEnv π) (w : MemWallet) : Op → Prop
  | .verify call => ∀ consignment accepted g,
      env.decodeConsignment call.blob = .ok consignment →
      w.acceptConsignment env call consignment = .ok accepted →
      consignment.aux = some g → ValidUtf8 g.currencyCode.toList
  | _ => True

/-- Such a step keeps the wallet persistable. -/
theorem Persistable.apply
    {w : MemWallet}
    {op : Op}
    (h : Persistable env w)
    (hcond : CodesReadable env w op) :
    Persistable env (w.apply env op) := by
  cases htouch : op.touchesIdentity with
  | false =>
      exact h.of_identity (apply_identity htouch w)
  | true =>
      cases op with
      | keygen secret =>
          exact ⟨h.codes, h.issuerCodes, h.nodup, h.issuersPinned⟩
      | initIssuer currency seed =>
          simp only [MemWallet.apply, initIssuer]
          cases hcode : parseCurrencyCode currency with
          | error e => exact h
          | ok code => exact h.addIssuer (validUtf8_of_parseCurrencyCode hcode)
      | initIssuerFromSeed currency seed nonce termsHash =>
          simp only [MemWallet.apply, initIssuerFromSeed]
          cases hcode : parseCurrencyCode currency with
          | error e => exact h
          | ok code =>
              simp only [bind, Except.bind, pure, Except.pure, afterCall]
              split
              · exact h
              · exact h.addIssuer (validUtf8_of_parseCurrencyCode hcode)
      | verify call =>
          rcases identity_verifyWithProvenance w call with
            hsame | ⟨consignment, accepted, hdecode, haccept, hpin⟩
          · exact h.of_identity hsame
          · have hpinned := h.pinAux (fun g =>
              hcond consignment accepted g hdecode haccept)
            exact hpinned.of_identity hpin
      | _ =>
          cases htouch

/--
In every run whose accepted consignments have readable currency codes, the
persisted secrets open again, with the same keys, issuers and pinned assets.
-/
theorem secrets_survive_restart
    {w : MemWallet}
    (hreach : ((system env).restrict (CodesReadable env)).Reachable w)
    (hjson : env.json.RoundTrips w.secretsJson.toJson) :
    ∃ w', openText env (env.json.print w.secretsJson.toJson) = .ok w' ∧
      w'.keys = w.keys ∧ w'.issuers = w.issuers ∧ w'.assets = w.assets := by
  have hpersistable : Persistable env w := by
    apply System.Reachable.invariant _ _ hreach
    · rintro w (⟨secret, rfl⟩ | ⟨text, htext⟩)
      · constructor <;> simp [create, empty]
      · unfold openText at htext
        split at htext
        · cases htext
        · exact persistable_of_openSecrets htext
    · rintro w op _ h ⟨rfl, hcond⟩
      exact h.apply hcond
  have hparse : (env.json.parse (env.json.print w.secretsJson.toJson) >>=
      SecretsJson.fromJson) = .ok w.secretsJson := by
    rw [except_bind_eq_ok_iff]
    exact ⟨_, hjson, SecretsJson.fromJson_toJson _⟩
  refine ⟨{ empty with keys := w.keys, issuers := w.issuers, assets := w.assets }, ?_,
    rfl, rfl, rfl⟩
  rw [openText, hparse]
  exact openSecrets_secretsJson hpersistable

end Runs

namespace Sample

open OpenCsv.Sample (genesis seed osk coin mintOf)

/-- The codec of the secrets of the sample wallet. -/
def secretsCodec : JsonText :=
  JsonText.ofValue (held (JsonText.ofValue .null)).secretsJson.toJson

theorem held_secrets :
    (held secretsCodec).secretsJson = (held (JsonText.ofValue .null)).secretsJson := by
  decide +kernel

theorem held_survives_restart :
    ∃ w', openText (mintEnv secretsCodec)
        (secretsCodec.print (held secretsCodec).secretsJson.toJson) = .ok w' ∧
      w'.keys = (held secretsCodec).keys ∧ w'.issuers = (held secretsCodec).issuers ∧
      w'.assets = (held secretsCodec).assets := by
  have hreach : ((system (mintEnv secretsCodec)).restrict
      (CodesReadable (mintEnv secretsCodec))).Reachable (held secretsCodec) := by
    apply System.Reachable.step (a := .verify mintCall)
      (System.Reachable.init (Or.inl ⟨osk.digest.bytes, rfl⟩))
    refine ⟨rfl, ?_⟩
    intro consignment accepted g hdecode _ haux
    have hmessage : consignment = mintConsignment (coin 60 1) (coin 40 2) (some genesis) :=
      (Except.ok.inj hdecode).symm
    rw [hmessage] at haux
    obtain rfl := Option.some.inj haux
    decide +kernel
  have hjson : (mintEnv secretsCodec).json.RoundTrips
      (held secretsCodec).secretsJson.toJson := by
    rw [held_secrets]
    exact JsonText.ofValue_roundTrips _
  exact secrets_survive_restart hreach hjson

/-- An asset whose currency code is no text. -/
def hostileGenesis : AssetGenesis :=
  { genesis with currencyCode := ⟨[0xFF, 0xFE, 0xFD], rfl⟩ }

def hostileCoin (value : UInt64) (r : UInt8) : Coin :=
  { coin value r with assetId := hostileGenesis.assetId foldSponge }

/-- An environment that knows a mint of that asset to the sample owner. -/
def hostileEnv (json : JsonText) : WalletEnv Unit :=
  walletEnv
    [(.mint, mintStatement foldSponge (hostileGenesis.assetId foldSponge) 100 (Digest.fill 9)
      (hostileCoin 60 1) (hostileCoin 40 2))]
    [mintConsignment (hostileCoin 60 1) (hostileCoin 40 2) (some hostileGenesis)] json

def hostileCall : VerifyCall where
  blob := [0]
  chain := mintSnapshot (hostileGenesis.assetId foldSponge)
  requiredConfirmations := 1
  unconfirmedAnchor := none

/-- The wallet after it has verified that mint. -/
def hostileHeld (json : JsonText) : MemWallet :=
  (create osk.digest.bytes).apply (hostileEnv json) (.verify hostileCall)

def hostileCodec : JsonText :=
  JsonText.ofValue (hostileHeld (JsonText.ofValue .null)).secretsJson.toJson

theorem hostileHeld_secrets :
    (hostileHeld hostileCodec).secretsJson =
      (hostileHeld (JsonText.ofValue .null)).secretsJson := by
  decide +kernel

/-- One accepted consignment makes the persisted secrets unreadable. -/
theorem hostile_code_unreadable :
    (system (hostileEnv hostileCodec)).Reachable (hostileHeld hostileCodec) ∧
      hostileCodec.RoundTrips (hostileHeld hostileCodec).secretsJson.toJson ∧
      ∀ w', openText (hostileEnv hostileCodec)
        (hostileCodec.print (hostileHeld hostileCodec).secretsJson.toJson) ≠ .ok w' := by
  have hjson : hostileCodec.RoundTrips (hostileHeld hostileCodec).secretsJson.toJson := by
    rw [hostileHeld_secrets]
    exact JsonText.ofValue_roundTrips _
  refine ⟨reachable_apply (reachable_create osk.digest.bytes) (.verify hostileCall), hjson, ?_⟩
  intro w' hopen
  have hparse : ((hostileEnv hostileCodec).json.parse
      (hostileCodec.print (hostileHeld hostileCodec).secretsJson.toJson) >>=
        SecretsJson.fromJson) = .ok (hostileHeld hostileCodec).secretsJson := by
    rw [except_bind_eq_ok_iff]
    exact ⟨_, hjson, SecretsJson.fromJson_toJson _⟩
  rw [openText, hparse] at hopen
  have hfails : ((hostileHeld hostileCodec).secretsJson.assets.mapM
      genesisFromJson).toOption.isNone = true := by
    decide +kernel
  simp only [openSecrets, except_bind_eq_ok_iff] at hopen
  obtain ⟨-, -, -, -, -, -, assets, hassets, -⟩ := hopen
  rw [hassets] at hfails
  cases hfails

end Sample

end MemWallet

end OpenCsv
