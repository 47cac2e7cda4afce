import OpenCsv.Lib.Bytes
import OpenCsv.Lib.Call
import OpenCsv.Lib.Result

/-!
# Cursors over byte strings

A cursor is a call on the bytes that were not read yet.  `Decodes read bytes a` says that
`read` takes exactly `bytes` off the front of any string that starts with them and answers
`a`; it composes along the sequence of the reads, as the encodings are concatenated.

`Codec` is the notion of a canonical format: valid values are read back from their
encodings, and only encodings of valid values are read.
-/

namespace OpenCsv

open Call

variable {ε α β : Type}

/-- A cursor: the bytes that were not read yet. -/
abbrev Cursor (ε α : Type) := Call ε (List UInt8) α

/-- The first `n` bytes. -/
def takeBytes (n : ℕ) (e : ε) : Cursor ε (List UInt8) := fun rest =>
  if n ≤ rest.length then .ok (rest.take n) (rest.drop n) else .error e rest

/-- Nothing is left. -/
def atEnd (e : ε) : Cursor ε Unit := fun rest =>
  if rest.isEmpty then .ok () rest else .error e rest

/-- `n` values, one after the other. -/
def repeated (n : ℕ) (read : Cursor ε α) : Cursor ε (List α) :=
  collect (List.range n) (fun _ => read)

section Decoding

/-- `read` takes `bytes` off the front and answers `a`. -/
def Decodes (read : Cursor ε α) (bytes : List UInt8) (a : α) : Prop :=
  ∀ rest, read (bytes ++ rest) = .ok a rest

variable {read : Cursor ε α}
variable {bytes bytes' : List UInt8}
variable {a : α}

theorem decodes_pure
    (a : α) :
    Decodes (pure a : Cursor ε α) [] a :=
  fun _ => rfl

theorem decodes_takeBytes
    {n : ℕ}
    {e : ε}
    (h : bytes.length = n) :
    Decodes (takeBytes n e) bytes bytes := by
  intro rest
  rw [takeBytes, if_pos (by rw [List.length_append]; omega), List.take_left' h,
    List.drop_left' h]

/-- One read after another. -/
theorem Decodes.bind
    {f : α → Cursor ε β}
    {b : β}
    (h : Decodes read bytes a)
    (h' : Decodes (f a) bytes' b) :
    Decodes (read >>= f) (bytes ++ bytes') b := by
  intro rest
  rw [bind_apply, List.append_assoc, h]
  exact h' rest

/-- One read after which nothing more is taken. -/
theorem Decodes.bind_nil
    {f : α → Cursor ε β}
    {b : β}
    (h : Decodes read bytes a)
    (h' : Decodes (f a) [] b) :
    Decodes (read >>= f) bytes b := by
  have hbind := h.bind h'
  rwa [List.append_nil] at hbind

/-- The last read, and what is made of it. -/
theorem Decodes.map
    (h : Decodes read bytes a)
    (f : α → β) :
    Decodes (read >>= fun a => pure (f a)) bytes (f a) := by
  intro rest
  rw [bind_apply, h]
  rfl

/-- A check that holds reads nothing. -/
theorem Decodes.demand
    {check : Bool}
    {e : ε}
    {f : Unit → Cursor ε β}
    {b : β}
    (hcheck : check = true)
    (h : Decodes (f ()) bytes b) :
    Decodes (Call.demand check e >>= f) bytes b := by
  intro rest
  rw [demand_bind_apply, if_pos hcheck]
  exact h rest

theorem decodes_lift
    {x : Except ε α}
    (h : x = .ok a) :
    Decodes (lift x : Cursor ε α) [] a := by
  intro rest
  rw [h]
  rfl

/-- The values of a list, each from its own encoding. -/
theorem decodes_repeated
    {enc : α → List UInt8}
    {as : List α}
    (h : ∀ a ∈ as, Decodes read (enc a) a) :
    Decodes (repeated as.length read) (as.flatMap enc) as := by
  have hgen : ∀ (ns : List ℕ) (as : List α), ns.length = as.length →
      (∀ a ∈ as, Decodes read (enc a) a) →
        Decodes (collect ns (fun _ => read)) (as.flatMap enc) as := by
    intro ns
    induction ns with
    | nil =>
        intro as hlength _
        obtain rfl := List.length_eq_zero_iff.mp hlength.symm
        exact decodes_pure []
    | cons n ns ih =>
        intro as hlength hread
        obtain ⟨a, as, rfl⟩ := List.exists_cons_of_length_eq_add_one hlength.symm
        rw [List.flatMap_cons]
        refine Decodes.bind (hread a List.mem_cons_self) ?_
        have hrest := ih as (by simpa using hlength)
          (fun b hb => hread b (List.mem_cons_of_mem a hb))
        exact hrest.map (fun as => a :: as)
  exact hgen (List.range as.length) as List.length_range h

/-- The bytes determine what is read from them. -/
theorem Decodes.unique
    {b : α}
    (h : Decodes read bytes a)
    (h' : Decodes read bytes b) :
    a = b := by
  have heq := (h []).symm.trans (h' [])
  injection heq

/-- A read that takes everything, and then the end. -/
theorem Decodes.answer_atEnd
    {e : ε}
    (h : Decodes read bytes a)
    (f : α → Cursor ε β) :
    answer (read >>= fun a => atEnd e >>= fun _ => f a) bytes = answer (f a) [] := by
  have hread := h []
  rw [List.append_nil] at hread
  unfold answer
  rw [bind_apply, hread]
  rfl

end Decoding

section Canonical

/-- A canonical format of the valid values. -/
structure Codec
    (valid : α → Prop)
    (encode : α → List UInt8)
    (decode : List UInt8 → Except ε α) : Prop where
  /-- A valid value is read back from its encoding. -/
  decode_encode : ∀ a, valid a → decode (encode a) = .ok a
  /-- Only the encoding of a valid value is read. -/
  encode_decode : ∀ bytes a, decode bytes = .ok a → encode a = bytes ∧ valid a

end Canonical

end OpenCsv
