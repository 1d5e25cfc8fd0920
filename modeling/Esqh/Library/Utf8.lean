import Mathlib.Order.Fin.Basic

/-!
UTF-8 over lists of code points. Surrogates are code points without an
encoding, and only the shortest sequence of a code point is one.
-/

namespace Utf8

abbrev Byte := Fin 0x100

abbrev Point := Fin 0x110000

/-- One half of a UTF-16 pair. -/
abbrev Surrogate (value : Nat) : Prop := 0xd800 ≤ value ∧ value ≤ 0xdfff

/-- A byte that leads a sequence or goes on with one. -/
def byte (offset bits : Nat) : Byte := Fin.ofNat 0x100 (offset + bits)

def encodePoint (point : Point) : Option (List Byte) :=
  let value := point.val
  if value < 0x80 then some [byte 0 value]
  else if value < 0x800 then some [byte 0xc0 (value / 64), byte 0x80 (value % 64)]
  else if Surrogate value then none
  else if value < 0x10000 then
    some [byte 0xe0 (value / 64 / 64), byte 0x80 (value / 64 % 64), byte 0x80 (value % 64)]
  else
    some [byte 0xf0 (value / 64 / 64 / 64), byte 0x80 (value / 64 / 64 % 64),
      byte 0x80 (value / 64 % 64), byte 0x80 (value % 64)]

def encode : List Point → Option (List Byte)
  | [] => some []
  | point :: text => do
      let bytes ← encodePoint point
      let rest ← encode text
      pure (bytes ++ rest)

/-- The bits of a byte that goes on with a sequence. -/
def continued (byte : Byte) : Option Nat :=
  if 0x80 ≤ byte.val ∧ byte.val < 0xc0 then some (byte.val - 0x80) else none

/-- The code point of a sequence, `least` being the first that needs its length. -/
def pointOf (least value : Nat) : Option Point :=
  if h : value < 0x110000 then
    if least ≤ value ∧ ¬Surrogate value then some ⟨value, h⟩ else none
  else none

def decode : List Byte → Option (List Point)
  | [] => some []
  | lead :: bytes =>
    if lead.val < 0x80 then do
      let point ← pointOf 0 lead.val
      let rest ← decode bytes
      pure (point :: rest)
    else if lead.val < 0xc0 then none
    else if lead.val < 0xe0 then
      match bytes with
      | second :: bytes => do
          let low ← continued second
          let point ← pointOf 0x80 ((lead.val - 0xc0) * 64 + low)
          let rest ← decode bytes
          pure (point :: rest)
      | _ => none
    else if lead.val < 0xf0 then
      match bytes with
      | second :: third :: bytes => do
          let middle ← continued second
          let low ← continued third
          let point ← pointOf 0x800 (((lead.val - 0xe0) * 64 + middle) * 64 + low)
          let rest ← decode bytes
          pure (point :: rest)
      | _ => none
    else if lead.val < 0xf8 then
      match bytes with
      | second :: third :: fourth :: bytes => do
          let high ← continued second
          let middle ← continued third
          let low ← continued fourth
          let point ←
            pointOf 0x10000 ((((lead.val - 0xf0) * 64 + high) * 64 + middle) * 64 + low)
          let rest ← decode bytes
          pure (point :: rest)
      | _ => none
    else none

/-- Text that UTF-8 can hold. -/
def SurrogateFree (text : List Point) : Prop := ∀ point ∈ text, ¬Surrogate point.val

instance (text : List Point) : Decidable (SurrogateFree text) :=
  inferInstanceAs (Decidable (∀ point ∈ text, ¬Surrogate point.val))

section Free

@[simp] theorem surrogateFree_nil : SurrogateFree [] := by simp [SurrogateFree]

@[simp] theorem surrogateFree_cons (point : Point) (text : List Point) :
    SurrogateFree (point :: text) ↔ ¬Surrogate point.val ∧ SurrogateFree text :=
  List.forall_mem_cons

@[simp] theorem surrogateFree_append (text more : List Point) :
    SurrogateFree (text ++ more) ↔ SurrogateFree text ∧ SurrogateFree more :=
  List.forall_mem_append

theorem forall_mem_intercalate {α : Type*} {P : α → Prop} {separator : List α}
    (h : ∀ c ∈ separator, P c) (texts : List (List α)) :
    (∀ c ∈ separator.intercalate texts, P c) ↔ ∀ text ∈ texts, ∀ c ∈ text, P c := by
  induction texts with
  | nil => simp
  | cons text texts ih =>
      cases texts with
      | nil => simp
      | cons next texts =>
          rw [List.intercalate_cons_cons, List.forall_mem_append, List.forall_mem_append, ih]
          simp only [List.forall_mem_cons, iff_true_intro h, and_true]

theorem surrogateFree_intercalate {separator : List Point} (h : SurrogateFree separator)
    (texts : List (List Point)) :
    SurrogateFree (separator.intercalate texts) ↔ ∀ text ∈ texts, SurrogateFree text :=
  forall_mem_intercalate h texts

end Free

section Encode

theorem encodePoint_eq_none_iff (point : Point) :
    encodePoint point = none ↔ Surrogate point.val := by
  simp only [encodePoint]
  split
  next => simp only [Surrogate, reduceCtorEq, false_iff]; omega
  next =>
    split
    next => simp only [Surrogate, reduceCtorEq, false_iff]; omega
    next =>
      split
      next hsurrogate => exact iff_of_true rfl hsurrogate
      next hsurrogate => split <;> exact iff_of_false (by simp) hsurrogate

/-- Encoding fails on surrogates only. -/
theorem encode_eq_none_iff (text : List Point) : encode text = none ↔ ¬SurrogateFree text := by
  induction text with
  | nil => simp [encode]
  | cons point text ih =>
      rw [encode, surrogateFree_cons, not_and_or, not_not, ← ih, ← encodePoint_eq_none_iff]
      cases encodePoint point with
      | none => simp
      | some bytes => cases encode text <;> simp

end Encode

section RoundTrip

theorem val_byte {offset bits : Nat} (h : offset + bits < 0x100) :
    (byte offset bits).val = offset + bits :=
  Nat.mod_eq_of_lt h

theorem continued_byte {bits : Nat} (h : bits < 64) : continued (byte 0x80 bits) = some bits := by
  have hval : (byte 0x80 bits).val = 0x80 + bits := val_byte (by omega)
  rw [continued, hval, if_pos (by omega), Nat.add_sub_cancel_left]

theorem pointOf_val {least : Nat} {point : Point} (hleast : least ≤ point.val)
    (hsurrogate : ¬Surrogate point.val) : pointOf least point.val = some point := by
  rw [pointOf, dif_pos point.isLt, if_pos ⟨hleast, hsurrogate⟩]

theorem bind_rest (point : Point) (rest : Option (List Point)) :
    (rest.bind fun rest => pure (point :: rest)) = rest.map (point :: ·) := by
  cases rest <;> rfl

theorem continued_digit (value : Nat) : continued (byte 0x80 (value % 64)) = some (value % 64) :=
  continued_byte (Nat.mod_lt _ (by decide))

/-! Sequences of one to four bytes, in front of more of them. -/

section Sequences

variable {point : Point} (rest : List Byte)

theorem decode_one (hbound : point.val < 0x80) :
    decode (byte 0 point.val :: rest) = (decode rest).map (point :: ·) := by
  have hlead : (byte 0 point.val).val = point.val := (val_byte (by omega)).trans (Nat.zero_add _)
  have hdecoded := pointOf_val (Nat.zero_le point.val) (fun h => by omega)
  rw [decode.eq_def]
  simp only [hlead]
  rw [if_pos hbound, hdecoded]
  exact bind_rest point _

theorem decode_two (hleast : 0x80 ≤ point.val) (hbound : point.val < 0x800) :
    decode (byte 0xc0 (point.val / 64) :: byte 0x80 (point.val % 64) :: rest) =
      (decode rest).map (point :: ·) := by
  have hlead : (byte 0xc0 (point.val / 64)).val = 0xc0 + point.val / 64 := val_byte (by omega)
  have hvalue : (0xc0 + point.val / 64 - 0xc0) * 64 + point.val % 64 = point.val := by omega
  have hdecoded := pointOf_val hleast (fun h => by omega)
  rw [decode.eq_def]
  simp only [hlead, continued_digit, Option.bind_eq_bind, Option.bind_some, hvalue, hdecoded]
  rw [if_neg (by omega), if_neg (by omega), if_pos (by omega)]
  exact bind_rest point _

theorem decode_three (hleast : 0x800 ≤ point.val) (hbound : point.val < 0x10000)
    (hsurrogate : ¬Surrogate point.val) :
    decode (byte 0xe0 (point.val / 64 / 64) :: byte 0x80 (point.val / 64 % 64) ::
        byte 0x80 (point.val % 64) :: rest) =
      (decode rest).map (point :: ·) := by
  have hlead : (byte 0xe0 (point.val / 64 / 64)).val = 0xe0 + point.val / 64 / 64 :=
    val_byte (by omega)
  have hvalue : ((0xe0 + point.val / 64 / 64 - 0xe0) * 64 + point.val / 64 % 64) * 64 +
      point.val % 64 = point.val := by omega
  have hdecoded := pointOf_val hleast hsurrogate
  rw [decode.eq_def]
  simp only [hlead, continued_digit, Option.bind_eq_bind, Option.bind_some, hvalue, hdecoded]
  rw [if_neg (by omega), if_neg (by omega), if_neg (by omega), if_pos (by omega)]
  exact bind_rest point _

theorem decode_four (hleast : 0x10000 ≤ point.val) :
    decode (byte 0xf0 (point.val / 64 / 64 / 64) :: byte 0x80 (point.val / 64 / 64 % 64) ::
        byte 0x80 (point.val / 64 % 64) :: byte 0x80 (point.val % 64) :: rest) =
      (decode rest).map (point :: ·) := by
  have hpoint := point.isLt
  have hlead : (byte 0xf0 (point.val / 64 / 64 / 64)).val = 0xf0 + point.val / 64 / 64 / 64 :=
    val_byte (by omega)
  have hvalue : (((0xf0 + point.val / 64 / 64 / 64 - 0xf0) * 64 + point.val / 64 / 64 % 64) * 64 +
      point.val / 64 % 64) * 64 + point.val % 64 = point.val := by omega
  have hdecoded := pointOf_val hleast (fun h => by omega)
  rw [decode.eq_def]
  simp only [hlead, continued_digit, Option.bind_eq_bind, Option.bind_some, hvalue, hdecoded]
  rw [if_neg (by omega), if_neg (by omega), if_neg (by omega), if_neg (by omega),
    if_pos (by omega)]
  exact bind_rest point _

end Sequences

/-- A code point's own sequence is decoded to it. -/
theorem decode_encodePoint {point : Point} {bytes : List Byte}
    (h : encodePoint point = some bytes) (rest : List Byte) :
    decode (bytes ++ rest) = (decode rest).map (point :: ·) := by
  simp only [encodePoint] at h
  split at h
  next hone =>
    cases h
    exact decode_one rest hone
  next hone =>
    split at h
    next htwo =>
      cases h
      exact decode_two rest (Nat.le_of_not_lt hone) htwo
    next htwo =>
      split at h
      next => cases h
      next hsurrogate =>
        split at h
        next hthree =>
          cases h
          exact decode_three rest (Nat.le_of_not_lt htwo) hthree hsurrogate
        next hthree =>
          cases h
          exact decode_four rest (Nat.le_of_not_lt hthree)

/-- What was encoded is read back. -/
theorem decode_of_encode {text : List Point} {bytes : List Byte} (h : encode text = some bytes) :
    decode bytes = some text := by
  induction text generalizing bytes with
  | nil =>
      cases Option.some.inj h
      rfl
  | cons point text ih =>
      rw [encode] at h
      cases hpoint : encodePoint point with
      | none => simp [hpoint] at h
      | some front =>
          cases hrest : encode text with
          | none => simp [hpoint, hrest] at h
          | some rest =>
              have hbytes : front ++ rest = bytes := by simpa [hpoint, hrest] using h
              rw [← hbytes, decode_encodePoint hpoint, ih hrest, Option.map_some]

end RoundTrip

end Utf8
