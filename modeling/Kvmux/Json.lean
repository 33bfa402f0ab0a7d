import Mathlib.Data.List.Basic
import Mathlib.Data.List.Infix
import Kvmux.Bytes

namespace Kvmux

inductive Json where
  | null
  | boolean (value : Bool)
  | integer (value : Int)
  | float (value : Float)
  | string (value : Bytes)
  | array (items : List Json)
  | object (fields : List (Bytes × Json))

def ValidUtf8 (bytes : Bytes) : Prop := (ByteArray.mk bytes.toArray).IsValidUTF8

instance : DecidablePred ValidUtf8 := fun bytes =>
  inferInstanceAs (Decidable (ByteArray.mk bytes.toArray).IsValidUTF8)

theorem text_utf8 (s : String) : ValidUtf8 (text s) := by
  simpa [ValidUtf8,text] using s.isValidUTF8

theorem utf8_append (one : ValidUtf8 first) (two : ValidUtf8 second) : ValidUtf8 (first ++ second) := by
  have joined : ByteArray.mk (first ++ second).toArray = ByteArray.mk first.toArray ++ ByteArray.mk second.toArray := by
    apply ByteArray.ext
    simp
  unfold ValidUtf8 at *
  rw [joined]
  exact one.append two

namespace Json

mutual
def Utf8 : Json → Prop
  | .string value => ValidUtf8 value
  | .array items => Utf8Items items
  | .object fields => Utf8Fields fields
  | _ => True

def Utf8Items : List Json → Prop
  | [] => True
  | item :: rest => item.Utf8 ∧ Utf8Items rest

def Utf8Fields : List (Bytes × Json) → Prop
  | [] => True
  | (key,value) :: rest => ValidUtf8 key ∧ value.Utf8 ∧ Utf8Fields rest
end

mutual
def utf8Decidable : (value : Json) → Decidable value.Utf8
  | .string value => inferInstanceAs (Decidable (ValidUtf8 value))
  | .array items => itemsDecidable items
  | .object fields => fieldsDecidable fields
  | .null | .boolean _ | .integer _ | .float _ => .isTrue trivial

def itemsDecidable : (items : List Json) → Decidable (Utf8Items items)
  | [] => .isTrue trivial
  | item :: rest => @instDecidableAnd _ _ (utf8Decidable item) (itemsDecidable rest)

def fieldsDecidable : (fields : List (Bytes × Json)) → Decidable (Utf8Fields fields)
  | [] => .isTrue trivial
  | (_,value) :: rest =>
    @instDecidableAnd _ _ inferInstance (@instDecidableAnd _ _ (utf8Decidable value) (fieldsDecidable rest))
end

instance : DecidablePred Utf8 := utf8Decidable

def find (key : Bytes) : Json → Option Json
  | .object fields => (fields.find? fun field => field.1 == key).map Prod.snd
  | _ => none

def contains (key : Bytes) (value : Json) : Bool := (value.find key).isSome

-- Assignment through operator[]: members are kept in key order.
def setField (key : Bytes) (value : Json) : List (Bytes × Json) → List (Bytes × Json)
  | [] => [(key,value)]
  | field :: rest =>
    if field.1 = key then (key,value) :: rest
    else if key < field.1 then (key,value) :: field :: rest
    else field :: setField key value rest

def isObject : Json → Bool
  | .object _ => true
  | _ => false

def isArray : Json → Bool
  | .array _ => true
  | _ => false

theorem utf8Fields_mem (valid : Utf8Fields fields) (member : field ∈ fields) : field.2.Utf8 := by
  induction fields with
  | nil => cases member
  | cons head rest ih =>
    rcases List.mem_cons.mp member with rfl | later
    · exact valid.2.1
    · exact ih valid.2.2 later

theorem find_utf8 {value : Json} (valid : value.Utf8) (found : value.find key = some part) : part.Utf8 := by
  cases value with
  | object fields =>
    obtain ⟨field,first,rfl⟩ := Option.map_eq_some_iff.mp found
    exact utf8Fields_mem valid (List.mem_of_find?_eq_some first)
  | _ => cases found

theorem setField_utf8 (name : ValidUtf8 key) (own : value.Utf8) (valid : Utf8Fields fields) :
    Utf8Fields (setField key value fields) := by
  induction fields with
  | nil => exact ⟨name,own,trivial⟩
  | cons field rest ih =>
    unfold setField
    split
    · exact ⟨name,own,valid.2.2⟩
    · split
      · exact ⟨name,own,valid⟩
      · exact ⟨valid.1,valid.2.1,ih valid.2.2⟩

theorem find_setField (key : Bytes) (value : Json) (fields : List (Bytes × Json)) :
    (Json.object (setField key value fields)).find key = some value := by
  induction fields with
  | nil => simp [setField,find]
  | cons field rest ih =>
    unfold setField
    split
    · simp [find]
    · rename_i other
      split
      · simp [find]
      · simpa [find,other] using ih

theorem find_setField_other {key other : Bytes} (different : other ≠ key) (value : Json) (fields : List (Bytes × Json)) :
    (Json.object (setField key value fields)).find other = (Json.object fields).find other := by
  induction fields with
  | nil => simp [setField,find,different.symm]
  | cons field rest ih =>
    unfold setField
    split
    · rename_i same
      simp [find,same,different.symm]
    · split
      · simp [find,different.symm]
      · by_cases own : field.1 = other
        · simp [find,own]
        · simpa [find,own] using ih

theorem setField_again (key : Bytes) (old new : Json) (fields : List (Bytes × Json)) :
    setField key new (setField key old fields) = setField key new fields := by
  induction fields with
  | nil => simp [setField]
  | cons field rest ih =>
    rw [setField]
    split
    · rename_i same
      simp [setField,same]
    · rename_i other
      split
      · rename_i before
        simp [setField,other,before]
      · rename_i behind
        simp [setField,other,behind,ih]

end Json

-- nlohmann/json. A discarded value is a failed parse, and dump throws exactly
-- where a string of the value is not valid UTF-8.
structure JsonLib where
  parse : Bytes → Option Json
  dump : Json → Option Bytes
  dumps : ∀ value, (dump value).isSome ↔ value.Utf8

-- Compact output: a string keeps its bytes between quotes, an array joins its
-- items between brackets, and an object holds the values of its members.
structure JsonLib.Compact (lib : JsonLib) : Prop where
  string : ∀ value out, lib.dump (.string value) = some out → value.length + 2 ≤ out.length
  array : ∀ items out, lib.dump (.array items) = some out →
    ∃ parts, items.mapM lib.dump = some parts ∧ out = 91 :: [44].intercalate parts ++ [93]
  object : ∀ fields out, lib.dump (.object fields) = some out →
    ∀ field ∈ fields, ∃ inside, lib.dump field.2 = some inside ∧ inside <:+: out

namespace Json

def hexDigit (n : UInt8) : UInt8 := if n < 10 then n + 48 else n + 87

def escape (c : UInt8) : Bytes :=
  if c = 34 then [92,34]
  else if c = 92 then [92,92]
  else if c = 8 then [92,98]
  else if c = 9 then [92,116]
  else if c = 10 then [92,110]
  else if c = 12 then [92,102]
  else if c = 13 then [92,114]
  else if c < 32 then [92,117,48,48,hexDigit (c / 16),hexDigit (c % 16)]
  else [c]

def quoted (value : Bytes) : Bytes := 34 :: value.flatMap escape ++ [34]

mutual
def render : Json → Bytes
  | .null => text "null"
  | .boolean value => text (toString value)
  | .integer value => text (toString value)
  | .float value => text (toString value)
  | .string value => quoted value
  | .array items => 91 :: [44].intercalate (renderItems items) ++ [93]
  | .object fields => 123 :: [44].intercalate (renderFields fields) ++ [125]

def renderItems : List Json → List Bytes
  | [] => []
  | item :: rest => item.render :: renderItems rest

def renderFields : List (Bytes × Json) → List Bytes
  | [] => []
  | (key,value) :: rest => (quoted key ++ colon :: value.render) :: renderFields rest
end

end Json

-- A library to run with: compact output, and a parser that knows the texts of a table.
def tableLib (table : List (Bytes × Json)) : JsonLib where
  parse bytes := (table.find? fun entry => entry.1 == bytes).map Prod.snd
  dump value := if value.Utf8 then some value.render else none
  dumps value := by
    split
    · rename_i valid
      simp [valid]
    · rename_i broken
      simp [broken]

theorem tableLib_parses (valid : ∀ entry ∈ table, entry.2.Utf8) (bytes : Bytes) (value : Json)
    (parsed : (tableLib table).parse bytes = some value) : value.Utf8 := by
  obtain ⟨entry,found,rfl⟩ := Option.map_eq_some_iff.mp parsed
  exact valid entry (List.mem_of_find?_eq_some found)

theorem mapM_missing {X Y : Type} (f : X → Option Y) (xs : List X) : xs.mapM f = none ↔ ∃ x ∈ xs, f x = none := by
  induction xs with
  | nil => simp
  | cons x rest ih =>
    rw [List.mapM_cons]
    cases first : f x with
    | none => simp [first]
    | some y =>
      cases later : rest.mapM f with
      | none =>
        obtain ⟨z,member,none⟩ := ih.mp later
        simp only [Option.bind_eq_bind,Option.bind_some,Option.bind_none,true_iff]
        exact ⟨z,List.mem_cons_of_mem _ member,none⟩
      | some ys =>
        rw [later] at ih
        simp_all

section Rendering
variable {table : List (Bytes × Json)}

theorem intercalate_part {sep part : Bytes} {parts : List Bytes} (member : part ∈ parts) : part <:+: sep.intercalate parts := by
  induction parts with
  | nil => cases member
  | cons first rest ih =>
    cases rest with
    | nil => rw [List.mem_singleton.mp member,List.intercalate_singleton]
    | cons second more =>
      rw [List.intercalate_cons_cons]
      rcases List.mem_cons.mp member with rfl | later
      · rw [List.append_assoc]
        exact (List.prefix_append part _).isInfix
      · exact (ih later).trans (List.suffix_append _ _).isInfix

theorem dump_render {value : Json} (valid : value.Utf8) : (tableLib table).dump value = some value.render := if_pos valid

theorem dump_valid {value : Json} (dumped : (tableLib table).dump value = some out) : value.Utf8 ∧ out = value.render := by
  have valid := ((tableLib table).dumps value).mp (by rw [dumped]; rfl)
  rw [dump_render valid] at dumped
  exact ⟨valid,(Option.some.inj dumped).symm⟩

theorem escape_full (c : UInt8) : 1 ≤ (Json.escape c).length := by
  unfold Json.escape
  repeat' split
  all_goals exact Nat.succ_le_succ (Nat.zero_le _)

theorem quoted_length (value : Bytes) : value.length + 2 ≤ (Json.quoted value).length := by
  have kept : value.length ≤ (value.flatMap Json.escape).length := by
    induction value with
    | nil => exact Nat.le_refl _
    | cons c rest ih =>
      have own := escape_full c
      rw [List.flatMap_cons,List.length_append,List.length_cons]
      omega
  simp only [Json.quoted,List.length_append,List.length_cons,List.length_nil]
  omega

theorem items_render {items : List Json} (valid : Json.Utf8Items items) :
    items.mapM (tableLib table).dump = some (Json.renderItems items) := by
  induction items with
  | nil => rfl
  | cons item rest ih =>
    rw [List.mapM_cons,dump_render valid.1,ih valid.2]
    rfl

theorem field_rendered {fields : List (Bytes × Json)} (member : field ∈ fields) :
    ∃ part ∈ Json.renderFields fields, field.2.render <:+: part := by
  induction fields with
  | nil => cases member
  | cons first rest ih =>
    rcases List.mem_cons.mp member with rfl | later
    · refine ⟨_,List.mem_cons_self,?_⟩
      exact ((List.suffix_cons colon _).trans (List.suffix_append _ _)).isInfix
    · obtain ⟨part,inside,found⟩ := ih later
      exact ⟨part,List.mem_cons_of_mem _ inside,found⟩

theorem tableLib_compact (table : List (Bytes × Json)) : (tableLib table).Compact where
  string := by
    intro value out dumped
    rw [(dump_valid dumped).2]
    exact quoted_length value
  array := by
    intro items out dumped
    obtain ⟨valid,rfl⟩ := dump_valid dumped
    exact ⟨_,items_render valid,rfl⟩
  object := by
    intro fields out dumped field member
    obtain ⟨valid,rfl⟩ := dump_valid dumped
    obtain ⟨part,inside,found⟩ := field_rendered member
    refine ⟨_,dump_render (Json.utf8Fields_mem valid member),found.trans ?_⟩
    exact (intercalate_part inside).trans (List.infix_append [123] _ [125])

end Rendering
end Kvmux
