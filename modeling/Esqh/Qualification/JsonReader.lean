import Esqh.Library.Reading
import Esqh.Qualification.Json

/-!
What `json.loads` reads, floats and escaped surrogates left out, whether halves
or complete pairs, and that it reads back what `json.dumps` writes. Duplicate keys
and white space are treated as `json.loads` treats them.
-/

namespace Esqh.Qualification

open Collections Reading

namespace Json

section Characters

def isBlank (point : CodePoint) : Bool :=
  point.val = 32 ∨ point.val = 9 ∨ point.val = 10 ∨ point.val = 13

def isDigit (point : CodePoint) : Bool := 48 ≤ point.val ∧ point.val ≤ 57

def hexValue (point : CodePoint) : Option Nat :=
  let value := point.val
  if 48 ≤ value ∧ value ≤ 57 then some (value - 48)
  else if 97 ≤ value ∧ value ≤ 102 then some (value - 87)
  else if 65 ≤ value ∧ value ≤ 70 then some (value - 55)
  else none

/-- What four hexadecimal digits stand for, unless it is a surrogate. -/
def hexPoint (a b c d : CodePoint) : Option CodePoint := do
  let a ← hexValue a
  let b ← hexValue b
  let c ← hexValue c
  let d ← hexValue d
  let value := 0x1000 * a + 0x100 * b + 0x10 * c + d
  if 0xd800 ≤ value ∧ value < 0xe000 then none else some (Fin.ofNat 0x110000 value)

/-- A backslash and one more character. -/
def shortEscape (code : CodePoint) : Option CodePoint :=
  if code.val = 34 ∨ code.val = 92 ∨ code.val = 47 then some code
  else if code.val = 98 then some 8
  else if code.val = 102 then some 12
  else if code.val = 110 then some 10
  else if code.val = 114 then some 13
  else if code.val = 116 then some 9
  else none

def withPoint (point : CodePoint) (found : Str × Str) : Str × Str := (point :: found.1, found.2)

/-- The rest of a string, after its first quotation mark. -/
def readChars : Reader CodePoint Str
  | [] => none
  | point :: rest =>
    if point.val = 34 then some ([], rest)
    else if point.val < 32 then none
    else if point.val ≠ 92 then (readChars rest).map (withPoint point)
    else
      match rest with
      | [] => none
      | code :: rest =>
        if code.val ≠ 117 then
          (shortEscape code).bind fun point => (readChars rest).map (withPoint point)
        else
          match rest with
          | a :: b :: c :: d :: rest =>
            (hexPoint a b c d).bind fun point => (readChars rest).map (withPoint point)
          | _ => none

end Characters

section Values

/-- The number goes on as a float. -/
def continuesNumber (rest : Str) : Bool :=
  match rest with
  | [] => false
  | point :: _ => point.val = 46 ∨ point.val = 69 ∨ point.val = 101

def decimal (digits : Str) : Nat :=
  digits.foldl (fun value point => 10 * value + (point.val - 48)) 0

def readNat : Reader CodePoint Nat := fun text =>
  let digits := text.takeWhile isDigit
  let rest := text.dropWhile isDigit
  if digits = [] ∨ (digits.head? = some 48 ∧ digits.length ≠ 1) ∨ continuesNumber rest then none
  else some (decimal digits, rest)

def readWord (word : String) (value : Json) : Reader CodePoint Json := fun text =>
  if (str word).isPrefixOf text then some (value, text.drop (str word).length) else none

def readScalar : Reader CodePoint Json
  | [] => none
  | point :: rest =>
    if point.val = 34 then mapped .string readChars rest
    else if point.val = 45 then mapped (fun value : Nat => .int (-value)) readNat rest
    else if isDigit point then mapped (fun value : Nat => .int value) readNat (point :: rest)
    else if point.val = 110 then readWord "null" .null (point :: rest)
    else if point.val = 116 then readWord "true" (.bool true) (point :: rest)
    else readWord "false" (.bool false) (point :: rest)

def readSymbol (symbol : CodePoint) : Reader CodePoint Unit
  | [] => none
  | point :: rest => if point = symbol then some ((), rest) else none

def readMember (value : Reader CodePoint Json) : Reader CodePoint (Str × Json) :=
  andThen (skipping isBlank (readSymbol 34)) fun _ =>
    andThen readChars fun key =>
      andThen (skipping isBlank (readSymbol 58)) fun _ => mapped (key, ·) value

/-- A value with containers inside each other up to the given number of levels. -/
def readValue : Nat → Reader CodePoint Json
  | 0 => skipping isBlank readScalar
  | levels + 1 => skipping isBlank fun text =>
    match text with
    | [] => none
    | point :: rest =>
      if point.val = 91 then
        mapped .array (readContainer isBlank 44 93 (readValue levels)) rest
      else if point.val = 123 then
        mapped (fun members => .object (Dict.ofPairs members).entries)
          (readContainer isBlank 44 125 (readMember (readValue levels))) rest
      else readScalar text

/-- A whole document. -/
def read (levels : Nat) (text : Str) : Option Json :=
  (readValue levels text).bind fun found => if found.2.all isBlank then some found.1 else none

end Values

section Strings

theorem hexValue_hexDigit {value : Nat} (h : value < 16) :
    hexValue (hexDigit value) = some value := by
  have hall : ∀ value < 16, hexValue (hexDigit value) = some value := by decide
  exact hall value h

theorem hexPoint_control {point : CodePoint} (h : point.val < 32) :
    hexPoint 48 48 (hexDigit (point.val / 16)) (hexDigit (point.val % 16)) = some point := by
  have hzero : hexValue 48 = some 0 := rfl
  simp only [hexPoint, hzero, hexValue_hexDigit (show point.val / 16 < 16 by omega),
    hexValue_hexDigit (show point.val % 16 < 16 by omega), bind, Option.bind_some]
  rw [if_neg (by omega)]
  apply congrArg some
  apply Fin.ext
  rw [Fin.val_ofNat, Nat.mod_eq_of_lt (by omega)]
  omega

theorem readChars_short {code short : CodePoint} (h : shortEscape code = some short)
    (rest : Str) : readChars (92 :: code :: rest) = (readChars rest).map (withPoint short) := by
  have hcode : code ≠ 117 := by
    rintro rfl
    cases h
  have hvalue : code.val ≠ 117 := fun heq => hcode (Fin.ext heq)
  rw [readChars.eq_def]
  simp [hvalue, h]

theorem readChars_hex {a b c d point : CodePoint} (h : hexPoint a b c d = some point)
    (rest : Str) :
    readChars (92 :: 117 :: a :: b :: c :: d :: rest) =
      (readChars rest).map (withPoint point) := by
  rw [readChars.eq_def]
  simp [h]

theorem readChars_plain {point : CodePoint} (hquote : point.val ≠ 34) (hslash : point.val ≠ 92)
    (hlow : ¬point.val < 32) (rest : Str) :
    readChars (point :: rest) = (readChars rest).map (withPoint point) := by
  rw [readChars.eq_def]
  simp [hquote, hslash, hlow]

theorem readChars_escape (point : CodePoint) (rest : Str) :
    readChars (escape point ++ rest) = (readChars rest).map (withPoint point) := by
  have hshort {text : Str} (code short : CodePoint) (hpoint : point.val = short.val)
      (htext : text = [92, code]) (hescape : shortEscape code = some short) :
      readChars (text ++ rest) = (readChars rest).map (withPoint point) := by
    obtain rfl : point = short := Fin.ext hpoint
    rw [htext]
    exact readChars_short hescape rest
  unfold escape
  split
  next h => exact hshort 34 34 h rfl rfl
  split
  next h => exact hshort 92 92 h rfl rfl
  split
  next h => exact hshort 98 8 h rfl rfl
  split
  next h => exact hshort 102 12 h rfl rfl
  split
  next h => exact hshort 110 10 h rfl rfl
  split
  next h => exact hshort 114 13 h rfl rfl
  split
  next h => exact hshort 116 9 h rfl rfl
  split
  next hcontrol =>
    have hunicode : str "\\u00" = [92, 117, 48, 48] := rfl
    rw [hunicode]
    exact readChars_hex (hexPoint_control hcontrol) rest
  next hquote hslash _ _ _ _ _ hlow => exact readChars_plain hquote hslash hlow rest

theorem reads_quoted (text : Str) (follows : Str → Prop) :
    Reads readChars follows (text.flatMap escape ++ [34]) text := by
  intro rest _
  rw [List.append_assoc]
  induction text with
  | nil => simp [readChars.eq_def]
  | cons point text ih =>
      rw [List.flatMap_cons, List.append_assoc, readChars_escape, ih, Option.map_some, withPoint]

end Strings

section Numbers

/-- What follows does not belong to a number. -/
def EndsNumber (rest : Str) : Prop :=
  rest.takeWhile isDigit = [] ∧ continuesNumber rest = false

theorem endsNumber_cons {point : CodePoint} {rest : Str} (hdigit : isDigit point = false)
    (hcontinues : continuesNumber [point] = false) : EndsNumber (point :: rest) :=
  ⟨by simp [hdigit], hcontinues⟩

def digitPoint (digit : Char) : CodePoint := Fin.ofNat 0x110000 digit.toNat

theorem isDigit_digitPoint {digit : Char} (h : digit.isDigit) : isDigit (digitPoint digit) := by
  simp only [Char.isDigit, Bool.and_eq_true, decide_eq_true_eq] at h
  have hlow : 48 ≤ digit.toNat := UInt32.le_iff_toNat_le.mp h.1
  have hhigh : digit.toNat ≤ 57 := UInt32.le_iff_toNat_le.mp h.2
  simp only [isDigit, digitPoint, val_ofNat_toNat, decide_eq_true_eq]
  exact ⟨hlow, hhigh⟩

theorem decimal_digitPoints (n : Nat) : decimal ((Nat.toDigits 10 n).map digitPoint) = n := by
  have hfold : decimal ((Nat.toDigits 10 n).map digitPoint) =
      Nat.ofDigitChars 10 (Nat.toDigits 10 n) 0 := by
    rw [decimal, List.foldl_map, Nat.ofDigitChars_eq_foldl]
    simp only [digitPoint, val_ofNat_toNat]
    rfl
  rw [hfold, Nat.ofDigitChars_ten_toDigits]

/-- Only zero is written with a leading zero. -/
theorem head_toDigits {n : Nat} (h : 0 < n) : (Nat.toDigits 10 n).head? ≠ some '0' := by
  induction n using Nat.strong_induction_on with
  | h n ih =>
      rw [Nat.toDigits_eq_if (by decide)]
      split
      next hlow =>
        have hall : ∀ n < 10, 0 < n → [Nat.digitChar n].head? ≠ some '0' := by decide
        exact hall n hlow h
      next hhigh =>
        have hpositive : 0 < n / 10 := by omega
        rw [List.head?_append_of_ne_nil _ Nat.toDigits_ne_nil]
        exact ih (n / 10) (by omega) hpositive

theorem leading_digitPoints (n : Nat) :
    ¬(((Nat.toDigits 10 n).map digitPoint).head? = some 48 ∧
      ((Nat.toDigits 10 n).map digitPoint).length ≠ 1) := by
  intro ⟨hhead, hlength⟩
  rcases Nat.eq_zero_or_pos n with rfl | hpositive
  · exact hlength rfl
  · obtain ⟨digit, hdigit, hpoint⟩ := Option.map_eq_some_iff.mp (List.head?_map.symm.trans hhead)
    have hvalue : digit.toNat = 48 := by
      rw [← val_ofNat_toNat digit]
      exact congrArg Fin.val hpoint
    exact head_toDigits hpositive (hdigit.trans (congrArg some (Char.toNat_inj.mp hvalue)))

theorem reads_natText (n : Nat) :
    Reads readNat EndsNumber ((Nat.toDigits 10 n).map digitPoint) n := by
  intro rest ⟨hdigits, hcontinues⟩
  have hall : ∀ point ∈ (Nat.toDigits 10 n).map digitPoint, isDigit point := by
    rw [List.forall_mem_map]
    intro digit hmem
    exact isDigit_digitPoint (Nat.isDigit_of_mem_toDigits (by decide) (by decide) hmem)
  have hrest : rest.dropWhile isDigit = rest := by
    have happend := List.takeWhile_append_dropWhile (p := isDigit) (l := rest)
    rwa [hdigits, List.nil_append] at happend
  have hnonempty : (Nat.toDigits 10 n).map digitPoint ≠ [] := by
    simp [Nat.toDigits_ne_nil]
  have hcondition : ¬((Nat.toDigits 10 n).map digitPoint = [] ∨
      (((Nat.toDigits 10 n).map digitPoint).head? = some 48 ∧
        ((Nat.toDigits 10 n).map digitPoint).length ≠ 1) ∨ continuesNumber rest) := by
    rintro (hempty | hzero | hfloat)
    · exact hnonempty hempty
    · exact leading_digitPoints n hzero
    · exact Bool.false_ne_true (hcontinues.symm.trans hfloat)
  rw [readNat, List.takeWhile_append_of_pos hall, List.dropWhile_append_of_pos hall, hdigits,
    hrest, List.append_nil, if_neg hcondition, decimal_digitPoints]

/-- The first character of a number decides how it is read. -/
theorem digitPoints_head (n : Nat) :
    ∃ point more, (Nat.toDigits 10 n).map digitPoint = point :: more ∧ isDigit point := by
  cases hdigits : Nat.toDigits 10 n with
  | nil => exact absurd hdigits Nat.toDigits_ne_nil
  | cons digit more =>
      have hdigit : digit.isDigit := by
        apply Nat.isDigit_of_mem_toDigits (b := 10) (n := n) (by decide) (by decide)
        rw [hdigits]
        exact List.mem_cons_self
      exact ⟨digitPoint digit, more.map digitPoint, rfl, isDigit_digitPoint hdigit⟩

theorem intText_eq (value : Int) :
    intText value =
      if value < 0 then 45 :: (Nat.toDigits 10 value.natAbs).map digitPoint
      else (Nat.toDigits 10 value.natAbs).map digitPoint := by
  have hrepr (n : Nat) : str n.repr = (Nat.toDigits 10 n).map digitPoint := by
    rw [str, Nat.toList_repr]
    rfl
  rw [intText, Int.toString_eq_repr, Int.repr_eq_if]
  by_cases h : 0 ≤ value
  · have hvalue : value.toNat = value.natAbs := by omega
    rw [if_pos h, if_neg (by omega), hvalue, hrepr]
  · have hvalue : (-value).toNat = value.natAbs := by omega
    rw [if_neg h, if_pos (by omega), hvalue, ← hrepr, str, String.toList_append]
    rfl

theorem reads_intText (value : Int) : Reads readScalar EndsNumber (intText value) (.int value) := by
  rw [intText_eq]
  split
  next hneg =>
    intro rest hrest
    have hread := (reads_natText value.natAbs).mapped (fun value : Nat => Json.int (-value))
      rest hrest
    have hvalue : -(value.natAbs : Int) = value := by omega
    rw [hvalue] at hread
    rw [List.cons_append, readScalar]
    exact hread
  next hnonneg =>
    intro rest hrest
    have hread := (reads_natText value.natAbs).mapped (fun value : Nat => Json.int value)
      rest hrest
    have hvalue : (value.natAbs : Int) = value := by omega
    rw [hvalue] at hread
    obtain ⟨point, more, hpoints, hdigit⟩ := digitPoints_head value.natAbs
    rw [hpoints, List.cons_append] at hread ⊢
    have hrange : 48 ≤ point.val ∧ point.val ≤ 57 := by simpa [isDigit] using hdigit
    rw [readScalar, if_neg (by omega), if_neg (by omega), if_pos hdigit]
    exact hread

end Numbers

/-! Which documents can be read back: no floats, the keys of an object in
ascending order, not too many containers inside each other. -/

mutual

def Canonical (levels : Nat) : Json → Prop
  | .null => True
  | .bool _ => True
  | .int _ => True
  | .float _ => False
  | .string _ => True
  | .array items => 0 < levels ∧ CanonicalItems (levels - 1) items
  | .object members =>
    0 < levels ∧ (members.map Prod.fst).Pairwise (· < ·) ∧ CanonicalMembers (levels - 1) members
termination_by structural document => document

def CanonicalItems (levels : Nat) : List Json → Prop
  | [] => True
  | item :: items => Canonical levels item ∧ CanonicalItems levels items
termination_by structural items => items

def CanonicalMembers (levels : Nat) : List (Str × Json) → Prop
  | [] => True
  | member :: members => CanonicalMember levels member ∧ CanonicalMembers levels members
termination_by structural members => members

def CanonicalMember (levels : Nat) : Str × Json → Prop
  | (_, value) => Canonical levels value
termination_by structural member => member

end

section Documents

theorem canonical_array (levels : Nat) (items : List Json) :
    (array items).Canonical (levels + 1) ↔ ∀ item ∈ items, item.Canonical levels := by
  rw [Canonical, Nat.add_sub_cancel]
  induction items with
  | nil => simp [CanonicalItems]
  | cons item items ih =>
      rw [CanonicalItems, List.forall_mem_cons, ← ih]
      simp

theorem canonical_object (levels : Nat) (members : List (Str × Json)) :
    (object members).Canonical (levels + 1) ↔
      (members.map Prod.fst).Pairwise (· < ·) ∧
        ∀ member ∈ members, member.2.Canonical levels := by
  have hmembers : CanonicalMembers levels members ↔
      ∀ member ∈ members, member.2.Canonical levels := by
    induction members with
    | nil => simp [CanonicalMembers]
    | cons member members ih =>
        rw [CanonicalMembers, List.forall_mem_cons, ih, CanonicalMember]
  rw [Canonical, Nat.add_sub_cancel, hmembers]
  simp

theorem isBlank_newline (depth : Nat) : ∀ point ∈ newline depth, isBlank point := by
  intro point hpoint
  rcases List.mem_cons.mp hpoint with rfl | hspace
  · decide
  · rw [List.eq_of_mem_replicate hspace]
    decide

theorem ignores_readValue (levels : Nat) : Ignores isBlank (readValue levels) := by
  cases levels with
  | zero => exact ignores_skipping _
  | succ levels => exact ignores_skipping _

theorem ignores_readMember (value : Reader CodePoint Json) :
    Ignores isBlank (readMember value) :=
  (ignores_skipping _).andThen

/-- A container on several lines, after its opening symbol. -/
theorem reads_layout {β : Type} {item : Reader CodePoint β} (opening closing : String)
    {first last : CodePoint} (hopening : str opening = [first]) (hclosing : str closing = [last])
    (hlast : isBlank last = false) (hother : (44 : CodePoint) ≠ last)
    (hignores : Ignores isBlank item) {lines : List Str} {values : List β}
    (hlines : List.Forall₂ (Reads item EndsNumber) lines values)
    (hhead : ∀ line ∈ lines, ∃ point more, line = point :: more ∧ isBlank point = false ∧
      point ≠ last) (depth : Nat) (follows : Str → Prop) :
    ∃ body, layout opening closing depth lines = first :: body ∧
      Reads (readContainer isBlank 44 last item) follows body values := by
  unfold layout
  rw [hopening, hclosing]
  split
  next hempty =>
    obtain rfl := List.isEmpty_iff.mp hempty
    cases hlines
    exact ⟨[last], rfl, reads_container_nil hlast follows⟩
  next hnonempty =>
    refine ⟨newline (depth + 1) ++ (44 :: newline (depth + 1)).intercalate lines ++
      newline depth ++ [last], by simp [show str "," = [44] from rfl], ?_⟩
    have hgap : ∀ rest, EndsNumber (44 :: rest) := fun rest =>
      endsNumber_cons rfl rfl
    have hfinal : ∀ rest, EndsNumber (newline depth ++ last :: rest) := fun rest =>
      endsNumber_cons rfl rfl
    have hspace := isBlank_newline (depth + 1)
    apply reads_container hgap hfinal (isBlank_newline depth) rfl hlast hother hspace
      _ hhead (by simpa using hnonempty)
    exact hlines.imp fun _ _ h => hignores.reads hspace h

/-- A value that is no container begins with this character. -/
def beginsScalar (point : CodePoint) : Bool :=
  !isBlank point && point.val != 91 && point.val != 123

theorem reads_scalar {levels : Nat} {follows : Str → Prop} {point : CodePoint} {text : Str}
    {document : Json} (hpoint : beginsScalar point)
    (h : Reads readScalar follows (point :: text) document) :
    Reads (readValue levels) follows (point :: text) document := by
  simp only [beginsScalar, Bool.and_eq_true, Bool.not_eq_true', bne_iff_ne] at hpoint
  obtain ⟨⟨hblank, harray⟩, hobject⟩ := hpoint
  cases levels with
  | zero => exact h.skipping hblank
  | succ levels =>
      apply Reads.skipping hblank
      intro rest hrest
      rw [List.cons_append]
      simp only [if_neg harray, if_neg hobject]
      exact h rest hrest

theorem reads_word (word : String) {point : CodePoint} {text : Str} {document : Json}
    (hword : str word = point :: text)
    (hscalar : ∀ rest, readScalar (point :: rest) = readWord word document (point :: rest)) :
    Reads readScalar EndsNumber (point :: text) document := by
  intro rest _
  rw [List.cons_append, hscalar, readWord, hword, ← List.cons_append, List.drop_left]
  simp

theorem reads_quote (levels : Nat) (text : Str) (follows : Str → Prop) :
    Reads (readValue levels) follows (quote text) (.string text) := by
  have htext : quote text = 34 :: (text.flatMap escape ++ [34]) := by
    simp [quote, show str "\"" = [34] from rfl]
  rw [htext]
  apply reads_scalar rfl
  intro rest hrest
  exact (reads_quoted text follows).mapped Json.string rest hrest

theorem intText_head (value : Int) :
    ∃ point more, intText value = point :: more ∧ beginsScalar point ∧ point ≠ 93 := by
  rw [intText_eq]
  split
  · exact ⟨45, _, rfl, rfl, by decide⟩
  · obtain ⟨point, more, hpoints, hdigit⟩ := digitPoints_head value.natAbs
    have hrange : 48 ≤ point.val ∧ point.val ≤ 57 := by simpa [isDigit] using hdigit
    refine ⟨point, more, hpoints, ?_, ?_⟩
    · simp only [beginsScalar, isBlank, Bool.and_eq_true, Bool.not_eq_true',
        decide_eq_false_iff_not, bne_iff_ne]
      omega
    · rintro rfl
      exact absurd hrange.2 (by decide)

theorem reads_int (levels : Nat) (value : Int) :
    Reads (readValue levels) EndsNumber (intText value) (.int value) := by
  have hread := reads_intText value
  obtain ⟨point, more, htext, hpoint, _⟩ := intText_head value
  rw [htext] at hread ⊢
  exact reads_scalar hpoint hread

/-- Every value begins with a character of its own. -/
theorem dumpAt_head {levels : Nat} (depth : Nat) {document : Json}
    (h : document.Canonical levels) :
    ∃ point more, dumpAt depth document = point :: more ∧ isBlank point = false ∧
      point ≠ 93 := by
  have hlayout (opening closing : String) (first : CodePoint) (lines : List Str)
      (hopening : str opening = [first]) :
      ∃ more, layout opening closing depth lines = first :: more := by
    unfold layout
    rw [hopening]
    split
    · exact ⟨_, rfl⟩
    · exact ⟨_, by rw [List.append_assoc, List.append_assoc, List.append_assoc]; rfl⟩
  cases document with
  | null => exact ⟨110, _, by rw [dumpAt]; rfl, rfl, by decide⟩
  | bool value =>
      cases value with
      | false => exact ⟨102, _, by rw [dumpAt]; rfl, rfl, by decide⟩
      | true => exact ⟨116, _, by rw [dumpAt]; rfl, rfl, by decide⟩
  | int value =>
      obtain ⟨point, more, htext, hpoint, hother⟩ := intText_head value
      simp only [beginsScalar, Bool.and_eq_true, Bool.not_eq_true'] at hpoint
      exact ⟨point, more, by rw [dumpAt, htext], hpoint.1.1, hother⟩
  | float text => rw [Canonical] at h; exact h.elim
  | string text => exact ⟨34, _, by rw [dumpAt]; rfl, rfl, by decide⟩
  | array items =>
      obtain ⟨more, hmore⟩ := hlayout "[" "]" 91 _ rfl
      exact ⟨91, more, by rw [dumpAt]; exact hmore, rfl, by decide⟩
  | object members =>
      obtain ⟨more, hmore⟩ := hlayout "\x7b" "\x7d" 123 _ rfl
      exact ⟨123, more, by rw [dumpAt]; exact hmore, rfl, by decide⟩

end Documents

section Containers

theorem reads_array {levels depth : Nat} {items : List Json}
    (hread : List.Forall₂ (Reads (readValue levels) EndsNumber) (dumpItems (depth + 1) items)
      items)
    (hhead : ∀ line ∈ dumpItems (depth + 1) items, ∃ point more, line = point :: more ∧
      isBlank point = false ∧ point ≠ 93) (follows : Str → Prop) :
    Reads (readValue (levels + 1)) follows (dumpAt depth (array items)) (.array items) := by
  obtain ⟨body, hbody, hitems⟩ := reads_layout "[" "]" rfl rfl rfl
    (by decide) (ignores_readValue levels) hread hhead depth follows
  rw [dumpAt, hbody]
  apply Reads.skipping rfl
  intro rest hrest
  exact hitems.mapped Json.array rest hrest

/-- A member of an object as it is printed. -/
def memberLine (member : Str × Str) : Str := quote member.1 ++ str ": " ++ member.2

theorem map_fst_dumpMembers (depth : Nat) (members : List (Str × Json)) :
    (dumpMembers depth members).map Prod.fst = members.map Prod.fst := by
  induction members with
  | nil => rfl
  | cons member members ih =>
      obtain ⟨key, value⟩ := member
      rw [dumpMembers, dumpMember, List.map_cons, List.map_cons, ih]

theorem sortedBy_dumpMembers {members : List (Str × Json)}
    (h : (members.map Prod.fst).Pairwise (· < ·)) (depth : Nat) :
    sortedBy Prod.fst (dumpMembers depth members) = dumpMembers depth members := by
  rw [← map_fst_dumpMembers depth] at h
  exact List.Pairwise.insertionSort_eq ((List.pairwise_map.mp h).imp le_of_lt)

/-- A member, with blanks behind its colon. -/
theorem reads_member {levels : Nat} {space text : Str} {value : Json} (key : Str)
    (hspace : ∀ point ∈ space, isBlank point)
    (h : Reads (readValue levels) EndsNumber text value) :
    Reads (readMember (readValue levels)) EndsNumber (quote key ++ 58 :: (space ++ text))
      (key, value) := by
  have hline : quote key ++ 58 :: (space ++ text) =
      [34] ++ ((key.flatMap escape ++ [34]) ++ ([58] ++ (space ++ text))) := by
    simp [quote, show str "\"" = [34] from rfl]
  have hsymbol (symbol : CodePoint) (hblank : isBlank symbol = false) (follows : Str → Prop) :
      Reads (skipping isBlank (readSymbol symbol)) follows [symbol] () := by
    apply Reads.skipping hblank
    intro rest _
    simp [readSymbol]
  have hvalue := ((ignores_readValue levels).reads hspace h).mapped (key, ·)
  rw [hline]
  apply (hsymbol 34 rfl fun _ => True).andThen _ fun _ _ => trivial
  apply (reads_quoted key fun _ => True).andThen _ fun _ _ => trivial
  exact (hsymbol 58 rfl fun _ => True).andThen hvalue fun _ _ => trivial

theorem reads_memberLine {levels : Nat} {key text : Str} {value : Json}
    (h : Reads (readValue levels) EndsNumber text value) :
    Reads (readMember (readValue levels)) EndsNumber (memberLine (key, text)) (key, value) := by
  have hline : memberLine (key, text) = quote key ++ 58 :: ([32] ++ text) := by
    simp [memberLine, show str ": " = [58, 32] from rfl]
  rw [hline]
  exact reads_member key (List.forall_mem_singleton.mpr rfl) h

theorem reads_object {levels depth : Nat} {members : List (Str × Json)}
    (hkeys : (members.map Prod.fst).Pairwise (· < ·))
    (hread : List.Forall₂ (Reads (readMember (readValue levels)) EndsNumber)
      ((dumpMembers (depth + 1) members).map memberLine) members) (follows : Str → Prop) :
    Reads (readValue (levels + 1)) follows (dumpAt depth (object members)) (.object members) := by
  have hhead : ∀ line ∈ (dumpMembers (depth + 1) members).map memberLine,
      ∃ point more, line = point :: more ∧ isBlank point = false ∧ point ≠ 125 := by
    rw [List.forall_mem_map]
    intro member _
    exact ⟨34, _, rfl, rfl, by decide⟩
  obtain ⟨body, hbody, hmembers⟩ := reads_layout "\x7b" "\x7d" rfl rfl rfl (by decide)
    (ignores_readMember _) hread hhead depth follows
  have hentries : (Dict.ofPairs members).entries = members :=
    Dict.entries_ofPairs (hkeys.imp ne_of_lt)
  have hlines : (dumpMembers (depth + 1) members).map memberLine =
      (dumpMembers (depth + 1) members).map fun member =>
        quote member.1 ++ str ": " ++ member.2 := rfl
  rw [dumpAt, sortedBy_dumpMembers hkeys]
  rw [hlines] at hbody
  simp only [hbody]
  apply Reads.skipping rfl
  intro rest hrest
  have hresult := hmembers.mapped (fun members => Json.object (Dict.ofPairs members).entries)
    rest hrest
  rw [hentries] at hresult
  exact hresult

end Containers

section RoundTrip

theorem dumpItems_head {levels : Nat} (depth : Nat) {items : List Json}
    (h : CanonicalItems levels items) :
    ∀ line ∈ dumpItems depth items, ∃ point more, line = point :: more ∧
      isBlank point = false ∧ point ≠ 93 := by
  induction items with
  | nil => exact List.forall_mem_nil _
  | cons item items ih =>
      rw [CanonicalItems] at h
      rw [dumpItems, List.forall_mem_cons]
      exact ⟨dumpAt_head depth h.1, ih h.2⟩

mutual

/-- What is printed is read back, the number of levels allowing it. -/
theorem reads_dumpAt (levels depth : Nat) :
    (document : Json) → document.Canonical levels →
      Reads (readValue levels) EndsNumber (dumpAt depth document) document
  | .null, _ => by
      rw [dumpAt]
      exact reads_scalar rfl (reads_word "null" rfl fun _ => rfl)
  | .bool false, _ => by
      rw [dumpAt]
      exact reads_scalar rfl (reads_word "false" rfl fun _ => rfl)
  | .bool true, _ => by
      rw [dumpAt]
      exact reads_scalar rfl (reads_word "true" rfl fun _ => rfl)
  | .int value, _ => by
      rw [dumpAt]
      exact reads_int levels value
  | .float _, h => by
      rw [Canonical] at h
      exact h.elim
  | .string text, _ => by
      rw [dumpAt]
      exact reads_quote levels text EndsNumber
  | .array items, h => by
      rw [Canonical] at h
      cases levels with
      | zero => exact absurd h.1 (Nat.lt_irrefl 0)
      | succ levels =>
          have hread := reads_dumpItems levels (depth + 1) items h.2
          exact reads_array hread (dumpItems_head (depth + 1) h.2) EndsNumber
  | .object members, h => by
      rw [Canonical] at h
      cases levels with
      | zero => exact absurd h.1 (Nat.lt_irrefl 0)
      | succ levels =>
          have hread := reads_dumpMembers levels (depth + 1) members h.2.2
          exact reads_object h.2.1 hread EndsNumber
termination_by structural document => document

theorem reads_dumpItems (levels depth : Nat) :
    (items : List Json) → CanonicalItems levels items →
      List.Forall₂ (Reads (readValue levels) EndsNumber) (dumpItems depth items) items
  | [], _ => .nil
  | item :: items, h => by
      rw [CanonicalItems] at h
      exact .cons (reads_dumpAt levels depth item h.1) (reads_dumpItems levels depth items h.2)
termination_by structural items => items

theorem reads_dumpMembers (levels depth : Nat) :
    (members : List (Str × Json)) → CanonicalMembers levels members →
      List.Forall₂ (Reads (readMember (readValue levels)) EndsNumber)
        ((dumpMembers depth members).map memberLine) members
  | [], _ => .nil
  | member :: members, h => by
      rw [CanonicalMembers] at h
      exact .cons (reads_dumpMember levels depth member h.1)
        (reads_dumpMembers levels depth members h.2)
termination_by structural members => members

theorem reads_dumpMember (levels depth : Nat) :
    (member : Str × Json) → CanonicalMember levels member →
      Reads (readMember (readValue levels)) EndsNumber (memberLine (dumpMember depth member))
        member
  | (key, value), h => by
      rw [CanonicalMember] at h
      rw [dumpMember]
      exact reads_memberLine (reads_dumpAt levels depth value h)
termination_by structural member => member

end

/-- A printed document, and line ends after it, is read as that document. -/
theorem read_dumps {levels : Nat} {document : Json} (h : document.Canonical levels) {rest : Str}
    (hends : EndsNumber rest) (hblank : rest.all isBlank) :
    read levels (dumps document ++ rest) = some document := by
  have hread := reads_dumpAt levels 0 document h rest hends
  rw [read, dumps, hread, Option.bind_some, if_pos hblank]

theorem dumpMembers_eq_map (depth : Nat) (members : List (Str × Json)) :
    dumpMembers depth members = members.map (dumpMember depth) := by
  induction members with
  | nil => rfl
  | cons member members ih => rw [dumpMembers, ih, List.map_cons]

/-- The text does not depend on the order in which the keys were inserted. -/
theorem dumpAt_object_of_perm {members others : List (Str × Json)} (h : members.Perm others)
    (hnodup : (members.map Prod.fst).Nodup) (depth : Nat) :
    dumpAt depth (object members) = dumpAt depth (object others) := by
  have hperm := h.map (dumpMember (depth + 1))
  rw [← dumpMembers_eq_map, ← dumpMembers_eq_map] at hperm
  have hsorted := sortedBy_eq_of_perm Prod.fst hperm <| by
    rw [← map_fst_dumpMembers (depth + 1)] at hnodup
    exact fun _ hmember _ hother hkey => List.inj_on_of_nodup_map hnodup hmember hother hkey
  rw [dumpAt, dumpAt, hsorted]

/-- An object is read back with its keys in ascending order. -/
theorem read_dumps_object {levels : Nat} {members : List (Str × Json)}
    (hnodup : (members.map Prod.fst).Nodup)
    (hvalues : ∀ member ∈ members, member.2.Canonical levels) {rest : Str}
    (hends : EndsNumber rest) (hblank : rest.all isBlank) :
    read (levels + 1) (dumps (object members) ++ rest) =
      some (.object (sortedBy Prod.fst members)) := by
  have hcanonical : (object (sortedBy Prod.fst members)).Canonical (levels + 1) := by
    rw [canonical_object]
    refine ⟨map_sortedBy_pairwise_lt Prod.fst hnodup, ?_⟩
    intro member hmember
    exact hvalues member ((mem_sortedBy Prod.fst).mp hmember)
  have htext : dumps (object members) = dumps (object (sortedBy Prod.fst members)) :=
    dumpAt_object_of_perm (perm_sortedBy Prod.fst members).symm hnodup 0
  rw [htext]
  exact read_dumps hcanonical hends hblank

end RoundTrip

section Compact

/-! Containers on one line, without blanks. -/

/-- A member as it is printed without blanks. -/
def compactMember (member : Str × Str) : Str := quote member.1 ++ 58 :: member.2

end Compact

end Json

end Esqh.Qualification
