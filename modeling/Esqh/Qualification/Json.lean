import Esqh.Library.Collections
import Esqh.Qualification.Text

/-!
JSON documents as `json.loads` returns them and `json.dumps` writes them, with
`indent=2`, `sort_keys=True` and `ensure_ascii=False`.
-/

namespace Esqh.Qualification

open Collections Utf8

/-- A document. A float is kept as it prints, an object in insertion order. -/
inductive Json where
  | null
  | bool (value : Bool)
  | int (value : Int)
  | float (text : Str)
  | string (text : Str)
  | array (items : List Json)
  | object (members : List (Str × Json))

namespace Json

/-- `dict.get` -/
def get (members : List (Str × Json)) (key : Str) : Option Json :=
  (members.find? fun member => member.1 = key).map Prod.snd

def hexDigit (value : Nat) : CodePoint :=
  Fin.ofNat 0x110000 (if value < 10 then 48 + value else 87 + value)

/-- Quotation marks, backslashes and control characters are escaped. -/
def escape (point : CodePoint) : Str :=
  if point.val = 34 then str "\\\""
  else if point.val = 92 then str "\\\\"
  else if point.val = 8 then str "\\b"
  else if point.val = 12 then str "\\f"
  else if point.val = 10 then str "\\n"
  else if point.val = 13 then str "\\r"
  else if point.val = 9 then str "\\t"
  else if point.val < 32 then
    str "\\u00" ++ [hexDigit (point.val / 16), hexDigit (point.val % 16)]
  else [point]

def quote (text : Str) : Str := str "\"" ++ text.flatMap escape ++ str "\""

def newline (depth : Nat) : Str := lineFeed :: List.replicate (2 * depth) 32

/-- A container on several lines, an empty one on the same line. -/
def layout (opening closing : String) (depth : Nat) (lines : List Str) : Str :=
  if lines.isEmpty then str opening ++ str closing
  else
    str opening ++ newline (depth + 1) ++
      (str "," ++ newline (depth + 1)).intercalate lines ++ newline depth ++ str closing

mutual

def dumpAt (depth : Nat) : Json → Str
  | .null => str "null"
  | .bool value => if value then str "true" else str "false"
  | .int value => intText value
  | .float text => text
  | .string text => quote text
  | .array items => layout "[" "]" depth (dumpItems (depth + 1) items)
  | .object members =>
    let lines := (sortedBy Prod.fst (dumpMembers (depth + 1) members)).map fun member =>
      quote member.1 ++ str ": " ++ member.2
    layout "\x7b" "\x7d" depth lines
termination_by structural document => document

def dumpItems (depth : Nat) : List Json → List Str
  | [] => []
  | item :: items => dumpAt depth item :: dumpItems depth items
termination_by structural items => items

def dumpMembers (depth : Nat) : List (Str × Json) → List (Str × Str)
  | [] => []
  | member :: members => dumpMember depth member :: dumpMembers depth members
termination_by structural members => members

def dumpMember (depth : Nat) : Str × Json → Str × Str
  | (key, value) => (key, dumpAt depth value)
termination_by structural member => member

end

def dumps (document : Json) : Str := dumpAt 0 document

/-! Which documents UTF-8 can hold. -/

mutual

def Printable : Json → Prop
  | .null => True
  | .bool _ => True
  | .int _ => True
  | .float text => SurrogateFree text
  | .string text => SurrogateFree text
  | .array items => PrintableItems items
  | .object members => PrintableMembers members
termination_by structural document => document

def PrintableItems : List Json → Prop
  | [] => True
  | item :: items => Printable item ∧ PrintableItems items
termination_by structural items => items

def PrintableMembers : List (Str × Json) → Prop
  | [] => True
  | member :: members => PrintableMember member ∧ PrintableMembers members
termination_by structural members => members

def PrintableMember : Str × Json → Prop
  | (key, value) => SurrogateFree key ∧ Printable value
termination_by structural member => member

end

section Printable

theorem printable_array (items : List Json) :
    (array items).Printable ↔ ∀ item ∈ items, item.Printable := by
  rw [Printable]
  induction items with
  | nil => simp [PrintableItems]
  | cons item items ih => rw [PrintableItems, ih, List.forall_mem_cons]

theorem printable_object (members : List (Str × Json)) :
    (object members).Printable ↔
      ∀ member ∈ members, SurrogateFree member.1 ∧ member.2.Printable := by
  rw [Printable]
  induction members with
  | nil => simp [PrintableMembers]
  | cons member members ih => rw [PrintableMembers, ih, List.forall_mem_cons, PrintableMember]

theorem surrogateFree_escape (point : CodePoint) :
    SurrogateFree (escape point) ↔ ¬Surrogate point.val := by
  have hdigit (value : Nat) (h : value < 16) : ¬Surrogate (hexDigit value).val := by
    rw [hexDigit, Fin.val_ofNat, Nat.mod_eq_of_lt (by split <;> omega)]
    rintro ⟨hlow, _⟩
    split at hlow <;> omega
  have hascii (h : point.val < 128) : ¬Surrogate point.val := by
    rintro ⟨hlow, _⟩
    omega
  unfold escape
  -- The seven short escapes are literals.
  iterate 7
    split
    · exact iff_of_true (surrogateFree_str _) (hascii (by omega))
  split
  next hcontrol =>
    apply iff_of_true _ (hascii (by omega))
    have hhigh := hdigit (point.val / 16) (by omega)
    have hlow := hdigit (point.val % 16) (by omega)
    simp [hhigh, hlow]
  next => simp

@[simp] theorem surrogateFree_quote (text : Str) :
    SurrogateFree (quote text) ↔ SurrogateFree text := by
  have hescaped : SurrogateFree (text.flatMap escape) ↔ SurrogateFree text := by
    induction text with
    | nil => simp
    | cons point text ih =>
        rw [List.flatMap_cons, surrogateFree_append, surrogateFree_escape, ih,
          surrogateFree_cons]
  simp [quote, hescaped]

theorem surrogateFree_newline (depth : Nat) : SurrogateFree (newline depth) := by
  intro point hpoint
  rcases List.mem_cons.mp hpoint with rfl | hspace
  · decide
  · rw [List.eq_of_mem_replicate hspace]
    decide

theorem surrogateFree_layout (opening closing : String) (depth : Nat) (lines : List Str) :
    SurrogateFree (layout opening closing depth lines) ↔ ∀ line ∈ lines, SurrogateFree line := by
  have hseparator : SurrogateFree (str "," ++ newline (depth + 1)) :=
    (surrogateFree_append _ _).mpr ⟨surrogateFree_str _, surrogateFree_newline _⟩
  unfold layout
  cases lines with
  | nil => simp
  | cons line lines => simp [surrogateFree_intercalate hseparator, surrogateFree_newline]

mutual

/-- The text of a document can be encoded exactly if the strings in it can. -/
theorem surrogateFree_dumpAt (depth : Nat) :
    (document : Json) → (SurrogateFree (dumpAt depth document) ↔ document.Printable)
  | .null => by simp [dumpAt, Printable]
  | .bool value => by cases value <;> simp [dumpAt, Printable]
  | .int value => by simp [dumpAt, Printable]
  | .float text => by simp [dumpAt, Printable]
  | .string text => by simp [dumpAt, Printable]
  | .array items => by
      rw [dumpAt, surrogateFree_layout, Printable, surrogateFree_dumpItems]
  | .object members => by
      rw [dumpAt, surrogateFree_layout, Printable, List.forall_mem_map,
        ← surrogateFree_dumpMembers (depth + 1) members]
      simp
termination_by structural document => document

theorem surrogateFree_dumpItems (depth : Nat) :
    (items : List Json) → ((∀ text ∈ dumpItems depth items, SurrogateFree text) ↔
      PrintableItems items)
  | [] => by simp [dumpItems, PrintableItems]
  | item :: items => by
      rw [dumpItems, List.forall_mem_cons, surrogateFree_dumpAt, surrogateFree_dumpItems,
        PrintableItems]
termination_by structural items => items

theorem surrogateFree_dumpMembers (depth : Nat) :
    (members : List (Str × Json)) →
      ((∀ key text, (key, text) ∈ dumpMembers depth members →
        SurrogateFree key ∧ SurrogateFree text) ↔ PrintableMembers members)
  | [] => by simp [dumpMembers, PrintableMembers]
  | member :: members => by
      rw [dumpMembers, PrintableMembers, ← surrogateFree_dumpMember depth member,
        ← surrogateFree_dumpMembers depth members, ← Prod.forall', ← Prod.forall']
      exact List.forall_mem_cons
termination_by structural members => members

theorem surrogateFree_dumpMember (depth : Nat) :
    (member : Str × Json) →
      (SurrogateFree (dumpMember depth member).1 ∧ SurrogateFree (dumpMember depth member).2 ↔
        PrintableMember member)
  | (key, value) => by rw [dumpMember, PrintableMember, surrogateFree_dumpAt]
termination_by structural member => member

end

end Printable

end Json

end Esqh.Qualification
