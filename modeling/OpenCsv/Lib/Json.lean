import OpenCsv.Lib.Result
import OpenCsv.Lib.Utf8

/-!
# JSON values and typed decoding

The values that derived serializers write, and the readers derived decoders are
made of: a field of a struct must be present exactly once, an optional field may
be absent or null, a numeric field must fit its width, unknown fields are
ignored.

The text of a value is written and read by a codec outside the development;
`JsonText.RoundTrips` is what is relied on, for the value at hand.
-/

namespace OpenCsv

/-- A JSON value. -/
inductive Json where
  | null
  | num (n : ℕ)
  | str (s : Text)
  | arr (elements : List Json)
  | obj (fields : List (String × Json))

namespace Json

section Readers

variable {α : Type}

/-- The value of a field, if it is there; a repeated field is an error. -/
def member (name : String) : Json → Except Text (Option Json)
  | .obj fields =>
      match fields.filter (fun field => field.1 == name) with
      | [] => .ok none
      | [field] => .ok (some field.2)
      | _ => .error (Text.lit "duplicate field " ++ Text.lit name)
  | _ => .error (Text.lit "invalid type: expected a map")

/-- A field that must be there. -/
def field (name : String) (read : Json → Except Text α) (j : Json) : Except Text α := do
  let value ← j.member name
  let value ← okOr value (Text.lit "missing field " ++ Text.lit name)
  read value

/-- A value or null. -/
def orNull (read : Json → Except Text α) : Json → Except Text (Option α)
  | .null => .ok none
  | j => (read j).map some

/-- An optional field: absent, null, or a value. -/
def optional (name : String) (read : Json → Except Text α) (j : Json) :
    Except Text (Option α) := do
  let value ← j.member name
  match value with
  | none => return none
  | some value => orNull read value

/-- A field with a default for the absent case. -/
def defaulted (name : String) (read : Json → Except Text α) (default : α) (j : Json) :
    Except Text α := do
  let value ← j.member name
  match value with
  | none => return default
  | some value => read value

def asText : Json → Except Text Text
  | .str s => .ok s
  | _ => .error (Text.lit "invalid type: expected a string")

/-- An unsigned number below `bound`. -/
def asNat (bound : ℕ) : Json → Except Text ℕ
  | .num n =>
      if n < bound then .ok n else .error (Text.lit "invalid value: integer out of range")
  | _ => .error (Text.lit "invalid type: expected an unsigned integer")

def asU8 (j : Json) : Except Text UInt8 :=
  (asNat (2 ^ 8) j).map UInt8.ofNat

def asU32 (j : Json) : Except Text UInt32 :=
  (asNat (2 ^ 32) j).map UInt32.ofNat

def asU64 (j : Json) : Except Text UInt64 :=
  (asNat (2 ^ 64) j).map UInt64.ofNat

def asList (read : Json → Except Text α) : Json → Except Text (List α)
  | .arr elements => elements.mapM read
  | _ => .error (Text.lit "invalid type: expected a sequence")

@[simp] theorem asText_str
    (s : Text) :
    asText (.str s) = .ok s :=
  rfl

theorem asNat_num
    {n bound : ℕ}
    (h : n < bound) :
    asNat bound (.num n) = .ok n := by
  rw [asNat, if_pos h]

@[simp] theorem asU8_num
    (n : UInt8) :
    asU8 (.num n.toNat) = .ok n := by
  rw [asU8, asNat_num n.toNat_lt]
  exact congrArg Except.ok (UInt8.ofNat_toNat)

@[simp] theorem asU32_num
    (n : UInt32) :
    asU32 (.num n.toNat) = .ok n := by
  rw [asU32, asNat_num n.toNat_lt]
  exact congrArg Except.ok (UInt32.ofNat_toNat)

@[simp] theorem asU64_num
    (n : UInt64) :
    asU64 (.num n.toNat) = .ok n := by
  rw [asU64, asNat_num n.toNat_lt]
  exact congrArg Except.ok (UInt64.ofNat_toNat)

/-- A list written element by element is read back. -/
theorem asList_map
    {read : Json → Except Text α}
    {write : α → Json}
    {xs : List α}
    (h : ∀ x ∈ xs, read (write x) = .ok x) :
    asList read (.arr (xs.map write)) = .ok xs :=
  mapM_map_eq_ok h

@[simp] theorem asList_asText
    (xs : List Text) :
    asList asText (.arr (xs.map .str)) = .ok xs :=
  asList_map (fun _ _ => rfl)

/-- A field of an object written once is read from its value. -/
theorem field_obj
    {name : String}
    {read : Json → Except Text α}
    {fields : List (String × Json)}
    {value : Json}
    (h : fields.filter (fun f => f.1 == name) = [(name, value)]) :
    field name read (.obj fields) = read value := by
  simp [field, member, h, okOr, bind, Except.bind]

end Readers

section Writer

/-- Escape what a string literal may not contain. -/
def escapeByte (b : UInt8) : List UInt8 :=
  if b = 0x22 then [0x5C, 0x22]
  else if b = 0x5C then [0x5C, 0x5C]
  else if b = 0x0A then [0x5C, 0x6E]
  else if b = 0x0D then [0x5C, 0x72]
  else if b = 0x09 then [0x5C, 0x74]
  else [b]

/-- A quoted string. -/
def quote (bytes : List UInt8) : List UInt8 :=
  0x22 :: bytes.flatMap escapeByte ++ [0x22]

/-- Join with commas. -/
def commas : List (List UInt8) → List UInt8
  | [] => []
  | [x] => x
  | x :: xs => x ++ 0x2C :: commas xs

/-- Compact text of a value; `depth` bounds its nesting. -/
def render : ℕ → Json → List UInt8
  | 0, _ => []
  | _, .null => [0x6E, 0x75, 0x6C, 0x6C]
  | _, .num n => (Text.ofNat n).bytes
  | _, .str s => quote s.bytes
  | depth + 1, .arr elements => 0x5B :: commas (elements.map (render depth)) ++ [0x5D]
  | depth + 1, .obj fields =>
      0x7B :: commas (fields.map (fun field =>
        quote (Text.lit field.1).bytes ++ 0x3A :: render depth field.2)) ++ [0x7D]

end Writer

end Json

/-- The text codec of JSON values. -/
structure JsonText where
  print : Json → Text
  parse : Text → Except Text Json

/-- The codec reads back what it wrote for this value. -/
def JsonText.RoundTrips (codec : JsonText) (j : Json) : Prop :=
  codec.parse (codec.print j) = .ok j

/-- The codec on one value: it writes the compact text and reads it as the value. -/
def JsonText.ofValue (j : Json) : JsonText where
  print := fun value => Text.fromUtf8Lossy (Json.render 8 value)
  parse := fun text =>
    if text = Text.fromUtf8Lossy (Json.render 8 j) then .ok j
    else .error (Text.lit "expected value")

theorem JsonText.ofValue_roundTrips
    (j : Json) :
    (JsonText.ofValue j).RoundTrips j :=
  if_pos rfl

end OpenCsv
