import AheadOfTime.Text.Json
import Mathlib.Data.Bool.AllAny
import Mathlib.Data.List.Forall2

/-! # Reading JSON texts

    A text is read one character at a time.  What has been opened and not yet closed
    lies on a stack of frames, and a mode says what may come next.  The reader knows
    nothing of the writer: white space may stand around everything, the fields of an
    object come in any order, and characters may be escaped that need not be.  Of
    numbers it knows the whole ones.

    `read?_render` says that the text of a value is read as that value, with the fields
    of its objects in the order of their keys, in which they are written. -/

namespace AheadOfTime

namespace Json

/-! ## Parts of values -/

/-- The number with these digits, which does not start with a zero unless that is all. -/
def natural? (digits : List Char) : Option Nat :=
  if digits ≠ [] ∧ digits.all Char.isDigit ∧ (digits.head? = some '0' → digits.length = 1) then
    some (Nat.ofDigitChars 10 digits 0)
  else none

/-- The number that is written, with a sign if it is below zero. -/
def integer? : List Char → Option Int
  | '-' :: digits => (natural? digits).map fun n : Nat => -(n : Int)
  | digits => (natural? digits).map Int.ofNat

/-- The value of a word or a number. -/
def literal? (cs : List Char) : Option Json :=
  if cs = "null".toList then some .null
  else if cs = "true".toList then some (.bool true)
  else if cs = "false".toList then some (.bool false)
  else (integer? cs).map .num

/-- The 16-bit units of a character, two if it lies beyond `U+FFFF`. -/
def unitsOf (c : Char) : List Nat :=
  if c.toNat < 0x10000 then [c.toNat]
  else [0xD800 + (c.toNat - 0x10000) / 0x400, 0xDC00 + (c.toNat - 0x10000) % 0x400]

/-- The characters with these units; one half of a character has to stand before the
    other. -/
def ofUnits? : List Nat → Option (List Char)
  | [] => some []
  | [unit] => if 0xD800 ≤ unit ∧ unit < 0xE000 then none else some [Char.ofNat unit]
  | unit :: next :: rest =>
    if 0xD800 ≤ unit ∧ unit < 0xDC00 then
      if 0xDC00 ≤ next ∧ next < 0xE000 then
        (ofUnits? rest).map
          (Char.ofNat (0x10000 + ((unit - 0xD800) * 0x400 + (next - 0xDC00))) :: ·)
      else none
    else if 0xDC00 ≤ unit ∧ unit < 0xE000 then none
    else (ofUnits? (next :: rest)).map (Char.ofNat unit :: ·)

/-- The value of a hexadecimal digit. -/
def hexDigit? (c : Char) : Option Nat :=
  if c.isDigit then some (c.toNat - 48)
  else if 'a' ≤ c ∧ c ≤ 'f' then some (c.toNat - 87)
  else if 'A' ≤ c ∧ c ≤ 'F' then some (c.toNat - 55)
  else none

/-- What a backslash and this character stand for. -/
def unescaped? : Char → Option Char
  | '"' => some '"'
  | '\\' => some '\\'
  | '/' => some '/'
  | 'b' => some '\x08'
  | 'f' => some '\x0c'
  | 'n' => some '\n'
  | 'r' => some '\r'
  | 't' => some '\t'
  | _ => none

/-- White space between the parts of a value. -/
def isSpace (c : Char) : Bool := c ∈ [' ', '\t', '\n', '\r']

/-- The characters of words and numbers. -/
def isLiteralChar (c : Char) : Bool := c.isAlphanum || c ∈ ['-', '+', '.']

/-! ## The reader -/

/-- What has been opened and not yet closed. -/
inductive Frame where
  /-- An array after these elements. -/
  | elements (before : List Json)
  /-- An object after these fields, with another key to come. -/
  | fields (before : List (String × Json))
  /-- An object after these fields and a key. -/
  | field (before : List (String × Json)) (key : String)

/-- What may come next. -/
inductive Mode where
  | value
  /-- The first element of an array, or the end of the array. -/
  | element
  | key
  /-- The first key of an object, or the end of the object. -/
  | firstKey
  | colon
  /-- Characters after those with these units. -/
  | text (units : List Nat)
  /-- What stands behind a backslash. -/
  | escape (units : List Nat)
  /-- A digit and `left` more, behind digits with this value. -/
  | code (units : List Nat) (left value : Nat)
  /-- More of a word or a number, or what stands behind it. -/
  | literal (cs : List Char)
  /-- What stands behind a value. -/
  | done (value : Json)

/-- A text half read. -/
structure Reading where
  mode : Mode
  frames : List Frame

namespace Reading

/-- The start of a value. -/
def start (frames : List Frame) (c : Char) : Option Reading :=
  if c = '[' then some ⟨.element, frames⟩
  else if c = '{' then some ⟨.firstKey, frames⟩
  else if c = '"' then some ⟨.text [], frames⟩
  else if isLiteralChar c then some ⟨.literal [c], frames⟩
  else none

/-- The character behind a value. -/
def proceed (value : Json) (frames : List Frame) (c : Char) : Option Reading :=
  if isSpace c then some ⟨.done value, frames⟩
  else match frames with
    | .elements before :: outer =>
      if c = ',' then some ⟨.value, .elements (before ++ [value]) :: outer⟩
      else if c = ']' then some ⟨.done (.arr (before ++ [value])), outer⟩
      else none
    | .field before key :: outer =>
      if c = ',' then some ⟨.key, .fields (before ++ [(key, value)]) :: outer⟩
      else if c = '}' then some ⟨.done (.obj (before ++ [(key, value)])), outer⟩
      else none
    | _ => none

/-- Whether a string would be a key. -/
def awaitsKey : List Frame → Bool
  | .fields _ :: _ => true
  | _ => false

/-- The end of a string: of a key, if one was to come, and else of a value. -/
def endString (s : String) : List Frame → Reading
  | .fields before :: outer => ⟨.colon, .field before s :: outer⟩
  | frames => ⟨.done (.str s), frames⟩

/-- The effect of the next character. -/
def step (r : Reading) (c : Char) : Option Reading :=
  match r.mode with
  | .value => if isSpace c then some r else start r.frames c
  | .element =>
    if isSpace c then some r
    else if c = ']' then some ⟨.done (.arr []), r.frames⟩
    else start (.elements [] :: r.frames) c
  | .key =>
    if isSpace c then some r else if c = '"' then some ⟨.text [], r.frames⟩ else none
  | .firstKey =>
    if isSpace c then some r
    else if c = '}' then some ⟨.done (.obj []), r.frames⟩
    else if c = '"' then some ⟨.text [], .fields [] :: r.frames⟩
    else none
  | .colon =>
    if isSpace c then some r else if c = ':' then some ⟨.value, r.frames⟩ else none
  | .text units =>
    if c = '"' then (ofUnits? units).map fun cs => endString (String.ofList cs) r.frames
    else if c = '\\' then some ⟨.escape units, r.frames⟩
    else if c.toNat < 0x20 then none
    else some ⟨.text (units ++ unitsOf c), r.frames⟩
  | .escape units =>
    if c = 'u' then some ⟨.code units 3 0, r.frames⟩
    else (unescaped? c).map fun d => ⟨.text (units ++ unitsOf d), r.frames⟩
  | .code units 0 value =>
    (hexDigit? c).map fun d => ⟨.text (units ++ [16 * value + d]), r.frames⟩
  | .code units (left + 1) value =>
    (hexDigit? c).map fun d => ⟨.code units left (16 * value + d), r.frames⟩
  | .literal cs =>
    if isLiteralChar c then some ⟨.literal (cs ++ [c]), r.frames⟩
    else (literal? cs).bind fun value => proceed value r.frames c
  | .done value => proceed value r.frames c

section

variable (frames : List Frame) (units : List Nat) (c : Char)

@[simp]
theorem step_value : step ⟨.value, frames⟩ c =
    if isSpace c then some ⟨.value, frames⟩ else start frames c := rfl

@[simp]
theorem step_element : step ⟨.element, frames⟩ c =
    if isSpace c then some ⟨.element, frames⟩
    else if c = ']' then some ⟨.done (.arr []), frames⟩
    else start (.elements [] :: frames) c := rfl

@[simp]
theorem step_text : step ⟨.text units, frames⟩ c =
    if c = '"' then (ofUnits? units).map fun cs => endString (String.ofList cs) frames
    else if c = '\\' then some ⟨.escape units, frames⟩
    else if c.toNat < 0x20 then none
    else some ⟨.text (units ++ unitsOf c), frames⟩ := rfl

@[simp]
theorem step_escape : step ⟨.escape units, frames⟩ c =
    if c = 'u' then some ⟨.code units 3 0, frames⟩
    else (unescaped? c).map fun d => ⟨.text (units ++ unitsOf d), frames⟩ := rfl

@[simp]
theorem step_code_zero (value : Nat) : step ⟨.code units 0 value, frames⟩ c =
    (hexDigit? c).map fun d => ⟨.text (units ++ [16 * value + d]), frames⟩ := rfl

@[simp]
theorem step_code_succ (left value : Nat) : step ⟨.code units (left + 1) value, frames⟩ c =
    (hexDigit? c).map fun d => ⟨.code units left (16 * value + d), frames⟩ := rfl

@[simp]
theorem step_literal (cs : List Char) : step ⟨.literal cs, frames⟩ c =
    if isLiteralChar c then some ⟨.literal (cs ++ [c]), frames⟩
    else (literal? cs).bind fun value => proceed value frames c := rfl

@[simp]
theorem step_done (value : Json) : step ⟨.done value, frames⟩ c = proceed value frames c := rfl

end

/-- The value that is complete if nothing more of it comes. -/
def value? (r : Reading) : Option Json :=
  match r.mode with
  | .literal cs => literal? cs
  | .done value => some value
  | _ => none

/-- The value of a text that ends here, if nothing is open. -/
def finish (r : Reading) : Option Json :=
  match r.frames with
  | [] => r.value?
  | _ => none

end Reading

/-- **The value of a text.** -/
def read? (text : List Char) : Option Json :=
  (text.foldlM Reading.step ⟨.value, []⟩).bind Reading.finish

/-- A value may be written in other ways than the one chosen here. -/
example : read? " [-20 ,\"\\u00E9\\/\"]".toList = some (.arr [.num (-20), .str "é/"]) := rfl

/-! ## Values with their fields in order -/

/-- The order of fields. -/
def keyLe {α : Type} (a b : String × α) : Bool := decide (a.1 ≤ b.1)

mutual

/-- The value with the fields of its objects in the order of their keys. -/
def ordered : Json → Json
  | null => null
  | bool value => bool value
  | num value => num value
  | str value => str value
  | arr elements => arr (orderedElements elements)
  | obj fields => obj ((orderedFields fields).mergeSort keyLe)

/-- The elements with their fields in order. -/
def orderedElements : List Json → List Json
  | [] => []
  | element :: later => ordered element :: orderedElements later

/-- The fields with the fields of their values in order. -/
def orderedFields : List (String × Json) → List (String × Json)
  | [] => []
  | (key, value) :: later => (key, ordered value) :: orderedFields later

end

/-- The elements of an array are put in order one by one. -/
theorem orderedElements_eq (elements : List Json) :
    orderedElements elements = elements.map ordered := by
  induction elements with
  | nil => rfl
  | cons element later ih => rw [orderedElements, ih, List.map_cons]

/-- The fields of an object are put in order one by one. -/
theorem orderedFields_eq (fields : List (String × Json)) :
    orderedFields fields = fields.map fun field => (field.1, field.2.ordered) := by
  induction fields with
  | nil => rfl
  | cons field later ih => rw [orderedFields, ih, List.map_cons]

/-- The elements of an array are rendered one by one. -/
theorem renderElements_eq (elements : List Json) :
    renderElements elements = elements.map render := by
  induction elements with
  | nil => rfl
  | cons element later ih => rw [renderElements, ih, List.map_cons]

/-- The fields of an object are rendered one by one. -/
theorem renderFields_eq (fields : List (String × Json)) :
    renderFields fields = fields.map fun field => (field.1, field.2.render) := by
  induction fields with
  | nil => rfl
  | cons field later ih => rw [renderFields, ih, List.map_cons]

/-- Values are put in order one by one, and so are the fields of an object. -/
theorem ordered_obj (fields : List (String × Json)) : (obj fields).ordered =
    obj ((fields.mergeSort keyLe).map fun field => (field.1, field.2.ordered)) := by
  rw [ordered, orderedFields_eq, List.map_mergeSort]
  exact fun a _ b _ => rfl

/-- An object is rendered with its fields sorted by their names. -/
theorem render_obj (fields : List (String × Json)) : (obj fields).render =
    '{' :: (commaSeparated (((fields.mergeSort keyLe).map fun field =>
      (field.1, field.2.render)).map renderField) ++ ['}']) := by
  rw [render, renderFields_eq, List.map_mergeSort (s := keyLe)]
  · rfl
  · exact fun a _ b _ => rfl

/-- Induction on a value, from its elements and the values of its fields. -/
theorem induct {P : Json → Prop} (hnull : P null) (hbool : ∀ value, P (bool value))
    (hnum : ∀ value, P (num value)) (hstr : ∀ value, P (str value))
    (harr : ∀ elements, (∀ element ∈ elements, P element) → P (arr elements))
    (hobj : ∀ fields, (∀ field ∈ fields, P field.2) → P (obj fields)) (v : Json) : P v := by
  refine @Json.rec P (fun elements => ∀ element ∈ elements, P element)
    (fun fields => ∀ field ∈ fields, P field.2) (fun field => P field.2)
    hnull hbool hnum hstr harr hobj (List.forall_mem_nil _) ?_ (List.forall_mem_nil _) ?_ ?_ v
  · exact fun element later helement hlater => List.forall_mem_cons.mpr ⟨helement, hlater⟩
  · exact fun field later hfield hlater => List.forall_mem_cons.mpr ⟨hfield, hlater⟩
  · exact fun key value hvalue => hvalue

/-! ## Numbers are read -/

/-- A decimal numeral has nothing but digits. -/
theorem isDigit_of_mem_toDigits {n : Nat} {c : Char} (h : c ∈ Nat.toDigits 10 n) :
    c.isDigit = true :=
  Nat.isDigit_of_mem_toDigits (by decide) (Nat.le_refl 10) h

/-- A decimal numeral begins with no zero, unless it is zero. -/
theorem head?_toDigits {n : Nat} (h : 0 < n) : (Nat.toDigits 10 n).head? ≠ some '0' := by
  induction n using Nat.base_induction 10 (by decide) with
  | single m hm =>
      have hdigit : ∀ m < 10, 0 < m → Nat.digitChar m ≠ '0' := by decide
      rw [Nat.toDigits_of_lt_base hm]
      exact fun hhead => hdigit m hm h (Option.some.inj hhead)
  | digit m k hk hm ih =>
      rw [← Nat.toDigits_append_toDigits (by decide) hm hk,
        List.head?_append_of_ne_nil _ Nat.toDigits_ne_nil]
      exact ih hm

/-- A natural number is read back from its numeral. -/
theorem natural?_toDigits (n : Nat) : natural? (Nat.toDigits 10 n) = some n := by
  have hdigits : (Nat.toDigits 10 n).all Char.isDigit = true :=
    List.all_eq_true.mpr fun c hc => isDigit_of_mem_toDigits hc
  have hzero : (Nat.toDigits 10 n).head? = some '0' → (Nat.toDigits 10 n).length = 1 := by
    intro hhead
    rcases Nat.eq_zero_or_pos n with rfl | hpos
    · rfl
    · exact absurd hhead (head?_toDigits hpos)
  rw [natural?, if_pos ⟨Nat.toDigits_ne_nil, hdigits, hzero⟩, Nat.ofDigitChars_ten_toDigits]

/-- A number is written with its digits, behind a sign if it is below zero. -/
theorem toList_toString (n : Int) : (toString n).toList =
    if 0 ≤ n then Nat.toDigits 10 n.toNat else '-' :: Nat.toDigits 10 (-n).toNat := by
  have hrepr : ∀ m : Nat, m.repr.toList = Nat.toDigits 10 m := fun m => by
    show (toString m).toList = _
    rw [Nat.toString_eq_ofList_toDigits, String.toList_ofList]
  show n.repr.toList = _
  rw [Int.repr_eq_if]
  by_cases hn : 0 ≤ n
  · rw [if_pos hn, if_pos hn, hrepr]
  · rw [if_neg hn, if_neg hn, String.toList_append, hrepr]
    rfl

/-- An integer is read back from its numeral. -/
theorem integer?_toString (n : Int) : integer? (toString n).toList = some n := by
  rw [toList_toString]
  by_cases hn : 0 ≤ n
  · have hsign : ∀ digits, Nat.toDigits 10 n.toNat ≠ '-' :: digits := fun digits heq =>
      nomatch isDigit_of_mem_toDigits (n := n.toNat) (c := '-') (heq ▸ List.mem_cons_self)
    rw [if_pos hn, integer?.eq_2 _ hsign, natural?_toDigits, Option.map_some]
    exact congrArg some (Int.toNat_of_nonneg hn)
  · rw [if_neg hn, integer?, natural?_toDigits, Option.map_some]
    congr 1
    omega

/-- A numeral is spelled with the characters of literals. -/
theorem isLiteralChar_of_mem_toString {n : Int} :
    ∀ c ∈ (toString n).toList, isLiteralChar c = true := by
  have hdigits : ∀ m, ∀ c ∈ Nat.toDigits 10 m, isLiteralChar c = true := fun m c hc => by
    simp [isLiteralChar, Char.isAlphanum, isDigit_of_mem_toDigits hc]
  rw [toList_toString]
  split
  · exact hdigits _
  · exact List.forall_mem_cons.mpr ⟨by decide, hdigits _⟩

/-- A numeral is a literal for its number. -/
theorem literal?_num (n : Int) : literal? (toString n).toList = some (.num n) := by
  have hword : ∀ word : List Char, integer? word = none → (toString n).toList ≠ word := by
    rintro word hnone rfl
    exact nomatch hnone.symm.trans (integer?_toString n)
  rw [literal?, if_neg (hword _ (by decide)), if_neg (hword _ (by decide)),
    if_neg (hword _ (by decide)), integer?_toString, Option.map_some]

/-! ## Strings are read -/

/-- The units of one character, and then those of others. -/
theorem ofUnits?_append (c : Char) (units : List Nat) :
    ofUnits? (unitsOf c ++ units) = (ofUnits? units).map (c :: ·) := by
  have hvalid : c.toNat < 0xD800 ∨ 0xDFFF < c.toNat ∧ c.toNat < 0x110000 := c.valid
  unfold unitsOf
  by_cases hshort : c.toNat < 0x10000
  · rw [if_pos hshort, List.singleton_append]
    cases units with
    | nil =>
        show (if 0xD800 ≤ c.toNat ∧ c.toNat < 0xE000 then none else some [Char.ofNat c.toNat]) = _
        rw [if_neg (by omega), Char.ofNat_toNat]
        rfl
    | cons next rest => rw [ofUnits?, if_neg (by omega), if_neg (by omega), Char.ofNat_toNat]
  · have hsum : 0x10000 + ((0xD800 + (c.toNat - 0x10000) / 0x400 - 0xD800) * 0x400 +
        (0xDC00 + (c.toNat - 0x10000) % 0x400 - 0xDC00)) = c.toNat := by
      omega
    rw [if_neg hshort, List.cons_append, List.singleton_append, ofUnits?, if_pos (by omega),
      if_pos (by omega), hsum, Char.ofNat_toNat]

/-- **Texts are read back** from their units. -/
theorem ofUnits?_flatMap (cs : List Char) : ofUnits? (cs.flatMap unitsOf) = some cs := by
  induction cs with
  | nil => rfl
  | cons c later ih => rw [List.flatMap_cons, ofUnits?_append, ih, Option.map_some]

/-- What hexadecimal digits stand for together, behind others with this value. -/
def ofDigits (digits : List Nat) (value : Nat) : Nat :=
  digits.foldl (fun value d => 16 * value + d) value

/-- Digits are read from the left. -/
theorem ofDigits_append (digits more : List Nat) (value : Nat) :
    ofDigits (digits ++ more) value = ofDigits more (ofDigits digits value) :=
  List.foldl_append

/-- Zeros in front are worth nothing. -/
theorem ofDigits_zeros (count : Nat) : ofDigits (List.replicate count 0) 0 = 0 := by
  induction count with
  | zero => rfl
  | succ count ih =>
      rw [List.replicate_succ]
      exact ih

/-- A number has hexadecimal digits, and they are worth the number. -/
theorem exists_digits_toDigits (n : Nat) : ∃ digits : List Nat,
    Nat.toDigits 16 n = digits.map Nat.digitChar ∧ (∀ d ∈ digits, d < 16) ∧
      ofDigits digits 0 = n := by
  induction n using Nat.base_induction 16 (by decide) with
  | single m hm =>
      refine ⟨[m], Nat.toDigits_of_lt_base hm, List.forall_mem_singleton.mpr hm, ?_⟩
      simp [ofDigits]
  | digit m k hk hm ih =>
      obtain ⟨digits, hmap, hall, hvalue⟩ := ih
      refine ⟨digits ++ [k], ?_, ?_, ?_⟩
      · rw [← Nat.toDigits_append_toDigits (by decide) hm hk, hmap, Nat.toDigits_of_lt_base hk,
          List.map_append, List.map_singleton]
      · exact List.forall_mem_append.mpr ⟨hall, List.forall_mem_singleton.mpr hk⟩
      · rw [ofDigits_append, hvalue]
        rfl

/-- The four digits of a unit, and what they stand for together. -/
theorem exists_digits_hex {n : Nat} (h : n < 0x10000) :
    ∃ digits : List Nat, (Text.hex 4 n).toList = digits.map Nat.digitChar ∧
      digits.length = 4 ∧ (∀ d ∈ digits, d < 16) ∧ ofDigits digits 0 = n := by
  obtain ⟨digits, hmap, hall, hvalue⟩ := exists_digits_toDigits n
  have hlength : digits.length ≤ 4 := by
    rw [← List.length_map (f := Nat.digitChar), ← hmap]
    exact (Nat.length_toDigits_le_iff (by decide) (by decide)).mpr h
  refine ⟨List.replicate (4 - digits.length) 0 ++ digits, ?_, ?_, ?_, ?_⟩
  · unfold Text.hex Text.zeroFill
    rw [String.toList_ofList, hmap, List.length_map, List.map_append, List.map_replicate]
    rfl
  · rw [List.length_append, List.length_replicate, Nat.sub_add_cancel hlength]
  · refine List.forall_mem_append.mpr ⟨?_, hall⟩
    intro d hd
    rw [List.eq_of_mem_replicate hd]
    decide
  · rw [ofDigits_append, ofDigits_zeros, hvalue]

namespace Reading

variable {frames : List Frame} {units : List Nat}

/-- Digits behind an escape are read to the number that they are worth. -/
theorem read_digits {digits : List Nat} {left value : Nat} (hlength : digits.length = left + 1)
    (hall : ∀ d ∈ digits, d < 16) :
    (digits.map Nat.digitChar).foldlM step ⟨.code units left value, frames⟩ =
      some ⟨.text (units ++ [ofDigits digits value]), frames⟩ := by
  have hdigit : ∀ d < 16, hexDigit? (Nat.digitChar d) = some d := by decide
  induction digits generalizing left value with
  | nil => exact nomatch hlength
  | cons d later ih =>
      obtain ⟨hd, hlater⟩ := List.forall_mem_cons.mp hall
      replace hlength : later.length = left := Nat.succ.inj hlength
      rw [List.map_cons, List.foldlM_cons]
      cases left with
      | zero =>
          rw [step_code_zero, hdigit d hd, List.length_eq_zero_iff.mp hlength]
          rfl
      | succ left =>
          rw [step_code_succ, hdigit d hd]
          exact ih hlength hlater

/-- **An escape for a unit** is read back to the unit. -/
theorem read_unitEscape {n : Nat} (h : n < 0x10000) :
    (unitEscape n).foldlM step ⟨.text units, frames⟩ = some ⟨.text (units ++ [n]), frames⟩ := by
  obtain ⟨digits, hhex, hlength, hall, hvalue⟩ := exists_digits_hex h
  rw [unitEscape, hhex, ← hvalue]
  exact read_digits hlength hall

/-- A backslash and a letter are read as what they stand for. -/
theorem read_escape (letter : Char) {c : Char} (hletter : letter ≠ 'u')
    (h : unescaped? letter = some c) :
    ['\\', letter].foldlM step ⟨.text units, frames⟩ =
      some ⟨.text (units ++ unitsOf c), frames⟩ := by
  show (step ⟨.escape units, frames⟩ letter).bind _ = _
  rw [step_escape, if_neg hletter, h]
  rfl

/-- **A character is read** as its units, however it is written. -/
theorem read_escapedChar (c : Char) : (escapedChar c).foldlM step ⟨.text units, frames⟩ =
    some ⟨.text (units ++ unitsOf c), frames⟩ := by
  have hofNat : ∀ n, c.toNat = n → Char.ofNat n = c := by
    intro n hn
    rw [← hn, Char.ofNat_toNat]
  dsimp only [escapedChar]
  split_ifs with hquote hbackslash hfeed hreturn htab hback hform hplain hshort
  · exact read_escape '"' (by decide) (by rw [hquote]; rfl)
  · exact read_escape '\\' (by decide) (by rw [hbackslash]; rfl)
  · exact read_escape 'n' (by decide) (by rw [hfeed]; rfl)
  · exact read_escape 'r' (by decide) (by rw [hreturn]; rfl)
  · exact read_escape 't' (by decide) (by rw [htab]; rfl)
  · exact read_escape 'b' (by decide) (by rw [← hofNat 8 hback]; rfl)
  · exact read_escape 'f' (by decide) (by rw [← hofNat 12 hform]; rfl)
  · rw [List.foldlM_cons, step_text, if_neg hquote, if_neg hbackslash, if_neg (by omega)]
    rfl
  · rw [read_unitEscape hshort, unitsOf, if_pos hshort]
  · -- the halves of the character are below the limit of a unit
    have hvalid : c.toNat < 0xD800 ∨ 0xDFFF < c.toNat ∧ c.toNat < 0x110000 := c.valid
    rw [List.foldlM_append, read_unitEscape (by omega), Option.bind_eq_bind, Option.bind_some,
      read_unitEscape (by omega), unitsOf, if_neg hshort, List.append_assoc]
    rfl

/-- Escaped characters are read back to their units. -/
theorem read_escapedChars (cs : List Char) :
    (cs.flatMap escapedChar).foldlM step ⟨.text units, frames⟩ =
      some ⟨.text (units ++ cs.flatMap unitsOf), frames⟩ := by
  induction cs generalizing units with
  | nil => simp
  | cons c later ih =>
      rw [List.flatMap_cons, List.foldlM_append, read_escapedChar, Option.bind_eq_bind,
        Option.bind_some, ih, List.flatMap_cons, List.append_assoc]

/-- The rest of a string is read up to the quote that ends it. -/
theorem read_string (s : String) :
    (s.toList.flatMap escapedChar ++ ['"']).foldlM step ⟨.text [], frames⟩ =
      some (endString s frames) := by
  rw [List.foldlM_append, read_escapedChars]
  simp [ofUnits?_flatMap]

/-! ## Values are read -/

variable {r : Reading} {c : Char} {v : Json}

/-- A complete value is left with any character that could not go on with it. -/
theorem step_of_value? (h : r.value? = some v) (hc : isLiteralChar c = false) :
    r.step c = proceed v r.frames c := by
  obtain ⟨mode, frames⟩ := r
  cases mode with
  | literal cs =>
      replace h : literal? cs = some v := h
      simp [hc, h]
  | done value =>
      cases h
      exact step_done frames c v
  | _ => exact nomatch h

end Reading

/-- The text is read as the value wherever one is to come, and does not start as
    something that may come in its place. -/
structure Spells (text : List Char) (v : Json) : Prop where
  head : ∃ c rest, text = c :: rest ∧ isSpace c = false ∧ c ≠ ']'
  read : ∀ frames, Reading.awaitsKey frames = false →
    ∃ r, text.foldlM Reading.step ⟨.value, frames⟩ = some r ∧ r.value? = some v ∧
      r.frames = frames

/-- The field is written with its key and a text of its value. -/
structure SpellsField (field : String × List Char) (read : String × Json) : Prop where
  key : field.1 = read.1
  value : Spells field.2 read.2

namespace Spells

open Reading

variable {text : List Char} {v : Json} {outer : List Frame}

/-- A value is read back from a text that spells it. -/
theorem read?_eq (h : Spells text v) : read? text = some v := by
  obtain ⟨r, hread, hvalue, hframes⟩ := h.read [] rfl
  rw [read?, hread, Option.bind_some, finish, hframes]
  exact hvalue

/-- What stands behind the text is read as it is behind the value. -/
theorem read_append (h : Spells text v) (houter : awaitsKey outer = false) {c : Char}
    (hc : isLiteralChar c = false) (more : List Char) :
    (text ++ c :: more).foldlM step ⟨.value, outer⟩ =
      (proceed v outer c).bind fun r => more.foldlM step r := by
  obtain ⟨r, hread, hvalue, hframes⟩ := h.read outer houter
  rw [List.foldlM_append, hread, Option.bind_eq_bind, Option.bind_some, List.foldlM_cons,
    step_of_value? hvalue hc, hframes]
  rfl

/-- The first element of an array is read as any other. -/
theorem read_first (h : Spells text v) (more : List Char) :
    (text ++ more).foldlM step ⟨.element, outer⟩ =
      (text ++ more).foldlM step ⟨.value, .elements [] :: outer⟩ := by
  obtain ⟨c, rest, rfl, hspace, hclose⟩ := h.head
  simp [hspace, hclose]

/-- The characters of a literal are kept until it is over. -/
theorem read_literalChars {cs : List Char} (h : ∀ c ∈ cs, isLiteralChar c = true)
    (before : List Char) : cs.foldlM step ⟨.literal before, outer⟩
      = some ⟨.literal (before ++ cs), outer⟩ := by
  induction cs generalizing before with
  | nil => simp
  | cons c later ih =>
      obtain ⟨hc, hlater⟩ := List.forall_mem_cons.mp h
      simp [hc, ih hlater]

/-- A word or a number is read as its value. -/
theorem literal {cs : List Char} (hvalue : literal? cs = some v) (hne : cs ≠ [])
    (hchars : ∀ c ∈ cs, isLiteralChar c = true) : Spells cs v := by
  obtain ⟨c, later, rfl⟩ := List.exists_cons_of_ne_nil hne
  obtain ⟨hc, hlater⟩ := List.forall_mem_cons.mp hchars
  -- the character means nothing else where a value is to come
  have hothers : ∀ d ∈ [' ', '\t', '\n', '\r', ']', '[', '{', '"'], isLiteralChar d = false :=
    List.all_iff_forall_prop.mp (by decide)
  have hother : c ∉ [' ', '\t', '\n', '\r', ']', '[', '{', '"'] := by
    intro hin
    exact nomatch (hothers c hin).symm.trans hc
  simp only [List.mem_cons, List.not_mem_nil, or_false, not_or] at hother
  obtain ⟨hblank, htab, hfeed, hreturn, hclose, harray, hobject, hquote⟩ := hother
  have hspace : isSpace c = false := by simp [isSpace, hblank, htab, hfeed, hreturn]
  constructor
  · exact ⟨c, later, rfl, hspace, hclose⟩
  · intro frames _
    refine ⟨⟨.literal (c :: later), frames⟩, ?_, hvalue, rfl⟩
    simp [hspace, start, harray, hobject, hquote, hc, read_literalChars hlater]

/-- A string is read as its value. -/
theorem string (s : String) : Spells (renderString s) (.str s) := by
  constructor
  · exact ⟨'"', _, rfl, by decide, by decide⟩
  · intro frames hframes
    have hend : endString s frames = ⟨.done (.str s), frames⟩ := by
      rcases frames with _ | ⟨_ | before | _, outer⟩
      · rfl
      · rfl
      · exact nomatch hframes
      · rfl
    exact ⟨_, (read_string s).trans (congrArg some hend), rfl, rfl⟩

end Spells

/-! ## Arrays and objects are read -/

theorem commaSeparated_singleton (text : List Char) : commaSeparated [text] = text :=
  List.append_nil text

theorem commaSeparated_cons_cons (text next : List Char) (later : List (List Char)) :
    commaSeparated (text :: next :: later)
      = text ++ ',' :: ' ' :: commaSeparated (next :: later) := rfl

namespace Reading

/-- Elements are read behind those before them, up to the end of the array. -/
theorem read_elements {texts : List (List Char)} {values : List Json}
    (h : List.Forall₂ Spells texts values) (hne : texts ≠ []) (before : List Json)
    (outer : List Frame) :
    (commaSeparated texts ++ [']']).foldlM step ⟨.value, .elements before :: outer⟩
      = some ⟨.done (.arr (before ++ values)), outer⟩ := by
  induction h generalizing before with
  | nil => exact absurd rfl hne
  | @cons text v texts values hfirst hlater ih =>
      cases hlater with
      | nil =>
          rw [commaSeparated_singleton, hfirst.read_append rfl rfl]
          rfl
      | @cons next _ later _ _ _ =>
          rw [commaSeparated_cons_cons, List.append_assoc, List.cons_append,
            hfirst.read_append rfl rfl]
          show (commaSeparated (next :: later) ++ [']']).foldlM step
            ⟨.value, .elements (before ++ [v]) :: outer⟩ = _
          rw [ih (List.cons_ne_nil next later), List.append_assoc]
          rfl

/-- A field is read up to its value. -/
theorem read_field (field : String × List Char) (before : List (String × Json))
    (more : List Char) (outer : List Frame) :
    (renderField field ++ more).foldlM step ⟨.key, .fields before :: outer⟩
      = (field.2 ++ more).foldlM step ⟨.value, .field before field.1 :: outer⟩ := by
  rw [renderField, List.append_assoc, List.foldlM_append]
  show ((field.1.toList.flatMap escapedChar ++ ['"']).foldlM step
    ⟨.text [], .fields before :: outer⟩).bind _ = _
  rw [read_string]
  rfl

/-- Fields are read behind those before them, up to the end of the object. -/
theorem read_fields {texts : List (String × List Char)} {fields : List (String × Json)}
    (h : List.Forall₂ SpellsField texts fields) (hne : texts ≠ [])
    (before : List (String × Json)) (outer : List Frame) :
    (commaSeparated (texts.map renderField) ++ ['}']).foldlM step
        ⟨.key, .fields before :: outer⟩
      = some ⟨.done (.obj (before ++ fields)), outer⟩ := by
  induction h generalizing before with
  | nil => exact absurd rfl hne
  | @cons text field texts fields hfirst hlater ih =>
      obtain ⟨key, value⟩ := text
      obtain ⟨key, v⟩ := field
      obtain ⟨rfl, hvalue⟩ := hfirst
      cases hlater with
      | nil =>
          rw [List.map_singleton, commaSeparated_singleton, read_field,
            hvalue.read_append rfl rfl]
          rfl
      | @cons next _ later _ _ _ =>
          rw [List.map_cons, List.map_cons, commaSeparated_cons_cons, List.append_assoc,
            List.cons_append, read_field, hvalue.read_append rfl rfl]
          show (commaSeparated ((next :: later).map renderField) ++ ['}']).foldlM step
            ⟨.key, .fields (before ++ [(key, v)]) :: outer⟩ = _
          rw [ih (List.cons_ne_nil next later), List.append_assoc]
          rfl

end Reading

namespace Spells

open Reading

/-- An array is read as its elements. -/
theorem array {texts : List (List Char)} {values : List Json}
    (h : List.Forall₂ Spells texts values) :
    Spells ('[' :: (commaSeparated texts ++ [']'])) (.arr values) := by
  constructor
  · exact ⟨'[', _, rfl, by decide, by decide⟩
  · intro frames _
    refine ⟨⟨.done (.arr values), frames⟩, ?_, rfl, rfl⟩
    show (commaSeparated texts ++ [']']).foldlM step ⟨.element, frames⟩ = _
    cases h with
    | nil => rfl
    | @cons text v texts values hfirst hlater =>
        have hall := read_elements (.cons hfirst hlater) (List.cons_ne_nil text texts) [] frames
        rw [List.nil_append] at hall
        rw [← hall]
        cases texts with
        | nil =>
            rw [commaSeparated_singleton]
            exact hfirst.read_first _
        | cons next later =>
            rw [commaSeparated_cons_cons, List.append_assoc]
            exact hfirst.read_first _

/-- An object is read as its fields. -/
theorem object {texts : List (String × List Char)} {fields : List (String × Json)}
    (h : List.Forall₂ SpellsField texts fields) :
    Spells ('{' :: (commaSeparated (texts.map renderField) ++ ['}'])) (.obj fields) := by
  constructor
  · exact ⟨'{', _, rfl, by decide, by decide⟩
  · intro frames _
    refine ⟨⟨.done (.obj fields), frames⟩, ?_, rfl, rfl⟩
    show (commaSeparated (texts.map renderField) ++ ['}']).foldlM step ⟨.firstKey, frames⟩ = _
    cases h with
    | nil => rfl
    | @cons text field texts fields hfirst hlater =>
        have hall := read_fields (.cons hfirst hlater) (List.cons_ne_nil text texts) [] frames
        rw [List.nil_append] at hall
        rw [← hall]
        -- the quote of the first key opens the list of fields
        cases texts with
        | nil => rfl
        | cons next later => rfl

end Spells

/-- **The text of a value spells it**, with its fields in order. -/
theorem spells_render (v : Json) : Spells v.render v.ordered := by
  induction v using Json.induct with
  | hnull => exact .literal rfl (by decide) (List.all_iff_forall_prop.mp (by decide))
  | hbool value =>
      have hchars : ∀ c ∈ "true".toList ++ "false".toList, isLiteralChar c = true :=
        List.all_iff_forall_prop.mp (by decide)
      obtain ⟨htrue, hfalse⟩ := List.forall_mem_append.mp hchars
      cases value with
      | true => exact .literal rfl (by decide) htrue
      | false => exact .literal rfl (by decide) hfalse
  | hnum value =>
      refine .literal (literal?_num value) (fun hnil => ?_) ?_
      · exact nomatch (literal?_num value).symm.trans (congrArg literal? hnil)
      · exact isLiteralChar_of_mem_toString
  | hstr value => exact .string value
  | harr elements ih =>
      rw [render, renderElements_eq, ordered, orderedElements_eq]
      refine .array (List.forall₂_map_left_iff.mpr (List.forall₂_map_right_iff.mpr ?_))
      exact List.forall₂_same.mpr ih
  | hobj fields ih =>
      -- the fields are written in the order of their keys
      have hfields : List.Forall₂ SpellsField
          ((fields.mergeSort keyLe).map fun field => (field.1, field.2.render))
          ((fields.mergeSort keyLe).map fun field => (field.1, field.2.ordered)) := by
        refine List.forall₂_map_left_iff.mpr (List.forall₂_map_right_iff.mpr ?_)
        exact List.forall₂_same.mpr fun field hfield =>
          ⟨rfl, ih field (List.mem_mergeSort.mp hfield)⟩
      rw [render_obj, ordered_obj]
      exact .object hfields

/-- **Reading undoes writing**, but for the order of fields. -/
theorem read?_render (v : Json) : read? v.render = some v.ordered := (spells_render v).read?_eq

end Json
end AheadOfTime
