import Mathlib.Data.List.Nodup
import Mathlib.Data.List.Basic
import Mathlib.Data.Int.Notation
import Mathlib.Tactic.Common

/-!
# JSON texts

The JSON encoder and decoder of a dynamic language: compact separators, characters above
the control range written as they are, objects as mappings in insertion order, and the three
non-finite numbers both sides accept.

The decoder is a pushdown machine that takes one character at a time.  So that a text is
cut or glued somewhere is a statement about the machine's configuration at that place:

* `loads_dumps` is the round trip;
* `finish_of_cut` has no proper part of an object's text end a JSON text;
* `loads_junction` has an object's text after other text a JSON text only when the other
  text is blank.

A float is its text, as the encoder writes it.
-/

namespace Json

-- A quantifier over the characters of a text is decided along the text, also where an instance
-- goes through every character there is.
instance (priority := 1100) decidableForallMemChars (p : Char → Prop) [DecidablePred p]
    (text : List Char) : Decidable (∀ c ∈ text, p c) :=
  List.decidableBAll p text

instance (priority := 1100) decidableExistsMemChars (p : Char → Prop) [DecidablePred p]
    (text : List Char) : Decidable (∃ c ∈ text, p c) :=
  List.decidableBEx p text

/-! ### Values -/

/-- A digit sequence of an integer part: `0`, or no leading zero. -/
def isIntDigits (digits : List Char) : Bool :=
  digits = ['0'] || (digits ≠ [] && digits.head? ≠ some '0' && digits.all Char.isDigit)

/-- The text after an optional sign. -/
def dropSign : List Char → List Char
  | '-' :: text => text
  | text => text

/-- An exponent: `e` or `E`, an optional sign and digits. -/
def isExponent : List Char → Bool
  | e :: rest =>
    let digits := match rest with
      | '+' :: digits => digits
      | '-' :: digits => digits
      | digits => digits
    (e = 'e' || e = 'E') && digits ≠ [] && digits.all Char.isDigit
  | [] => false

/-- A fraction with an optional exponent, or an exponent alone. -/
def isFraction : List Char → Bool
  | '.' :: rest =>
    let digits := rest.takeWhile Char.isDigit
    let exponent := rest.dropWhile Char.isDigit
    digits ≠ [] && (exponent = [] || isExponent exponent)
  | text => isExponent text

/-- The text of an integer. -/
def isIntText (text : List Char) : Bool := isIntDigits (dropSign text)

/-- The text of a finite float. -/
def isFloatText (text : List Char) : Bool :=
  isIntDigits ((dropSign text).takeWhile Char.isDigit) &&
    isFraction ((dropSign text).dropWhile Char.isDigit)

/-- A finite float, as its text. -/
abbrev FloatText := {text : List Char // isFloatText text = true}

/-- The numbers that are not finite. -/
inductive NonFinite
  | nan
  | infinity
  | negInfinity
deriving DecidableEq

/-- A JSON value. -/
inductive Value
  | null
  | bool (b : Bool)
  | int (n : ℤ)
  | float (text : FloatText)
  | nonFinite (n : NonFinite)
  | str (s : String)
  | arr (items : List Value)
  | obj (fields : List (String × Value))

mutual

/-- Equality of values, computed. -/
def Value.beq : Value → Value → Bool
  | .null, .null => true
  | .bool a, .bool b => a = b
  | .int a, .int b => a = b
  | .float a, .float b => a = b
  | .nonFinite a, .nonFinite b => a = b
  | .str a, .str b => a = b
  | .arr a, .arr b => beqItems a b
  | .obj a, .obj b => beqFields a b
  | _, _ => false

def beqItems : List Value → List Value → Bool
  | [], [] => true
  | a :: as, b :: bs => a.beq b && beqItems as bs
  | _, _ => false

def beqFields : List (String × Value) → List (String × Value) → Bool
  | [], [] => true
  | (j, a) :: as, (k, b) :: bs => j = k && a.beq b && beqFields as bs
  | _, _ => false

end

mutual

theorem Value.beq_iff : ∀ a b : Value, a.beq b = true ↔ a = b
  | .arr a, b => by
    cases b with
    | arr b =>
      rw [Value.beq, beqItems_iff a b, Value.arr.injEq]
    | _ => simp [Value.beq]
  | .obj a, b => by
    cases b with
    | obj b =>
      rw [Value.beq, beqFields_iff a b, Value.obj.injEq]
    | _ => simp [Value.beq]
  | .null, b | .bool _, b | .int _, b | .float _, b | .nonFinite _, b | .str _, b => by
    cases b <;> simp [Value.beq]

theorem beqItems_iff : ∀ as bs : List Value, beqItems as bs = true ↔ as = bs
  | [], bs => by cases bs <;> simp [beqItems]
  | a :: as, [] => by simp [beqItems]
  | a :: as, b :: bs => by
    rw [beqItems, Bool.and_eq_true, Value.beq_iff a b, beqItems_iff as bs, List.cons.injEq]

theorem beqFields_iff : ∀ as bs : List (String × Value), beqFields as bs = true ↔ as = bs
  | [], bs => by cases bs <;> simp [beqFields]
  | a :: as, [] => by simp [beqFields]
  | (j, a) :: as, (k, b) :: bs => by
    rw [beqFields, Bool.and_eq_true, Bool.and_eq_true, Value.beq_iff a b, beqFields_iff as bs,
      List.cons.injEq, Prod.mk.injEq, decide_eq_true_eq]

end

instance : DecidableEq Value := fun a b => decidable_of_iff _ (Value.beq_iff a b)

mutual

/-- Every object in the value has distinct keys. -/
def Value.wellFormed : Value → Bool
  | .arr items => wellFormedItems items
  | .obj fields => decide (fields.map Prod.fst).Nodup && wellFormedFields fields
  | _ => true

def wellFormedItems : List Value → Bool
  | [] => true
  | v :: rest => v.wellFormed && wellFormedItems rest

def wellFormedFields : List (String × Value) → Bool
  | [] => true
  | (_, v) :: rest => v.wellFormed && wellFormedFields rest

end

/-- A value a program can hold: its objects are mappings. -/
abbrev Document := {v : Value // v.wellFormed = true}

/-- `mapping[key] = value`: a new key goes to the end. -/
def setField : List (String × Value) → String → Value → List (String × Value)
  | [], key, value => [(key, value)]
  | field :: rest, key, value =>
    if field.1 = key then (key, value) :: rest else field :: setField rest key value

theorem setField_of_notMem {fields : List (String × Value)} {key : String} (value : Value)
    (h : key ∉ fields.map Prod.fst) : setField fields key value = fields ++ [(key, value)] := by
  induction fields with
  | nil => rfl
  | cons field rest ih =>
    rw [List.map_cons, List.mem_cons, not_or] at h
    rw [setField, if_neg (Ne.symm h.1), ih h.2]
    rfl

theorem map_fst_setField (fields : List (String × Value)) (key : String) (value : Value) :
    (setField fields key value).map Prod.fst =
      if key ∈ fields.map Prod.fst then fields.map Prod.fst
      else fields.map Prod.fst ++ [key] := by
  induction fields with
  | nil => rfl
  | cons field rest ih =>
    by_cases hkey : field.1 = key
    · rw [setField, if_pos hkey, if_pos (by rw [List.map_cons, hkey]; exact List.mem_cons_self),
        List.map_cons, List.map_cons, hkey]
    · rw [setField, if_neg hkey, List.map_cons, ih, List.map_cons]
      by_cases hmem : key ∈ rest.map Prod.fst
      · rw [if_pos hmem, if_pos (List.mem_cons_of_mem _ hmem)]
      · rw [if_neg hmem, if_neg]
        · rfl
        · rw [List.mem_cons, not_or]
          exact ⟨Ne.symm hkey, hmem⟩

theorem wellFormedFields_setField {fields : List (String × Value)} {value : Value}
    (hfields : wellFormedFields fields = true) (hvalue : value.wellFormed = true) (key : String) :
    wellFormedFields (setField fields key value) = true := by
  induction fields with
  | nil => simp [setField, wellFormedFields, hvalue]
  | cons field rest ih =>
    rw [wellFormedFields, Bool.and_eq_true] at hfields
    rw [setField]
    split
    · rw [wellFormedFields, hvalue, hfields.2]
      rfl
    · rw [wellFormedFields, hfields.1, ih hfields.2]
      rfl

theorem lookup_setField (fields : List (String × Value)) (key : String) (value : Value) :
    (setField fields key value).lookup key = some value := by
  induction fields with
  | nil => simp [setField]
  | cons field rest ih =>
    rw [setField]
    split
    · simp
    · rename_i hne
      rw [List.lookup_cons, beq_eq_false_iff_ne.mpr (Ne.symm hne)]
      exact ih

theorem lookup_setField_of_ne (fields : List (String × Value)) {key other : String}
    (hne : other ≠ key) (value : Value) :
    (setField fields key value).lookup other = fields.lookup other := by
  induction fields with
  | nil => simp [setField, hne]
  | cons field rest ih =>
    rw [setField]
    split
    · rename_i hkey
      rw [List.lookup_cons, List.lookup_cons, hkey, beq_eq_false_iff_ne.mpr hne]
    · rw [List.lookup_cons, List.lookup_cons, ih]

theorem wellFormed_null : Value.null.wellFormed = true := rfl

theorem wellFormed_int (n : ℤ) : (Value.int n).wellFormed = true := rfl

theorem wellFormed_one : (Value.int 1).wellFormed = true := rfl

theorem wellFormed_str (s : String) : (Value.str s).wellFormed = true := rfl

theorem wellFormed_nil : (Value.arr []).wellFormed = true := rfl

/-- The fields of an object a program can hold. -/
abbrev Mapping := {fields : List (String × Value) // (Value.obj fields).wellFormed = true}

namespace Mapping

/-- `{}`. -/
def empty : Mapping := ⟨[], rfl⟩

/-- `mapping[key] = value`. -/
def set (m : Mapping) (key : String) (value : Document) : Mapping :=
  ⟨setField m.1 key value.1, by
    have hm := m.2
    rw [Value.wellFormed, Bool.and_eq_true, decide_eq_true_eq] at hm ⊢
    refine ⟨?_, wellFormedFields_setField hm.2 value.2 key⟩
    rw [map_fst_setField]
    split
    · exact hm.1
    · rename_i hnew
      rw [List.nodup_append]
      refine ⟨hm.1, List.nodup_singleton _, ?_⟩
      rintro a ha b hb rfl
      exact hnew (List.mem_singleton.mp hb ▸ ha)⟩

/-- `mapping.update(fields)`. -/
def update (m : Mapping) (fields : List (String × Document)) : Mapping :=
  fields.foldl (fun m field => m.set field.1 field.2) m

/-- The object. -/
def document (m : Mapping) : Document := ⟨.obj m.1, m.2⟩

/-- The first key. -/
def FirstKey (m : Mapping) (key : String) : Prop := ∃ value rest, m.1 = (key, value) :: rest

theorem FirstKey.set {m : Mapping} {first : String} (h : m.FirstKey first) (key : String)
    (value : Document) : (m.set key value).FirstKey first := by
  obtain ⟨u, rest, hm⟩ := h
  show ∃ value' rest', setField m.1 key value.1 = (first, value') :: rest'
  rw [hm, setField]
  split
  · rename_i heq
    exact ⟨value.1, rest, by rw [← heq]⟩
  · exact ⟨u, _, rfl⟩

end Mapping

/-! ### Encoding -/

/-- A character inside a string. -/
def escapeChar (c : Char) : List Char :=
  if c = '"' then ['\\', '"']
  else if c = '\\' then ['\\', '\\']
  else if c = '\n' then ['\\', 'n']
  else if c = '\r' then ['\\', 'r']
  else if c = '\t' then ['\\', 't']
  else if c.toNat = 8 then ['\\', 'b']
  else if c.toNat = 12 then ['\\', 'f']
  else if c.toNat < 32 then
    ['\\', 'u', '0', '0', Nat.digitChar (c.toNat / 16), Nat.digitChar (c.toNat % 16)]
  else [c]

/-- The characters of a string and its closing quote. -/
def dumpsChars : List Char → List Char
  | [] => ['"']
  | c :: rest => escapeChar c ++ dumpsChars rest

/-- A string. -/
def dumpsString (s : String) : List Char := '"' :: dumpsChars s.toList

/-- An integer. -/
def intText (n : ℤ) : List Char :=
  if n < 0 then '-' :: Nat.toDigits 10 n.natAbs else Nat.toDigits 10 n.natAbs

/-- The name of a non-finite number. -/
def NonFinite.text : NonFinite → List Char
  | .nan => ['N', 'a', 'N']
  | .infinity => ['I', 'n', 'f', 'i', 'n', 'i', 't', 'y']
  | .negInfinity => ['-', 'I', 'n', 'f', 'i', 'n', 'i', 't', 'y']

mutual

/-- `json.dumps(value, ensure_ascii=False, separators=(",", ":"))`. -/
def dumps : Value → List Char
  | .null => ['n', 'u', 'l', 'l']
  | .bool true => ['t', 'r', 'u', 'e']
  | .bool false => ['f', 'a', 'l', 's', 'e']
  | .int n => intText n
  | .float text => text.1
  | .nonFinite n => n.text
  | .str s => dumpsString s
  | .arr [] => ['[', ']']
  | .arr (v :: rest) => '[' :: (dumps v ++ dumpsItems rest)
  | .obj [] => ['{', '}']
  | .obj ((key, v) :: rest) => '{' :: (dumpsString key ++ ':' :: (dumps v ++ dumpsFields rest))

/-- The items after the first one, and the bracket. -/
def dumpsItems : List Value → List Char
  | [] => [']']
  | v :: rest => ',' :: (dumps v ++ dumpsItems rest)

/-- The fields after the first one, and the brace. -/
def dumpsFields : List (String × Value) → List Char
  | [] => ['}']
  | (key, v) :: rest => ',' :: (dumpsString key ++ ':' :: (dumps v ++ dumpsFields rest))

end

/-! ### Decoding -/

/-- JSON whitespace. -/
def isBlank (c : Char) : Bool := c = ' ' || c = '\t' || c = '\n' || c = '\r'

/-- A character of a number. -/
def isNumberChar (c : Char) : Bool :=
  c.isDigit || c = '-' || c = '+' || c = '.' || c = 'e' || c = 'E'

/-- The value of a number's text. -/
def numberValue (text : List Char) : Option Value :=
  if h : isFloatText text = true then some (.float ⟨text, h⟩)
  else if isIntText text then
    let magnitude : ℤ := Nat.ofDigitChars 10 (dropSign text) 0
    some (.int (if text.head? = some '-' then -magnitude else magnitude))
  else none

/-- The value of a hexadecimal digit. -/
def hexValue (c : Char) : Option ℕ :=
  if c.isDigit then some (c.toNat - 48)
  else if 97 ≤ c.toNat ∧ c.toNat ≤ 102 then some (c.toNat - 87)
  else if 65 ≤ c.toNat ∧ c.toNat ≤ 70 then some (c.toNat - 55)
  else none

/-- An open container: an array with its items, an object with its fields, and an object
whose next key is read. -/
inductive Frame
  | items (xs : List Value)
  | fields (fs : List (String × Value))
  | field (fs : List (String × Value)) (key : String)

/-- What the decoder reads next. -/
inductive Mode
  | value
  | firstItem
  | firstKey
  | key
  | colon
  /-- The rest of a container. -/
  | after
  | str (chars : List Char)
  | escape (chars : List Char)
  /-- The four digits of `\u`; after a high surrogate, those of the low one. -/
  | hex (chars : List Char) (high : Option ℕ) (digits : List ℕ)
  /-- The `\u` of the low surrogate. -/
  | low (chars : List Char) (high : ℕ) (backslash : Bool)
  | number (text : List Char)
  | word (rest : List Char) (v : Value)
  | done (v : Value)

/-- A configuration of the decoder. -/
structure Config where
  mode : Mode
  stack : List Frame

/-- A value is complete. -/
def complete (stack : List Frame) (v : Value) : Option Config :=
  match stack with
  | [] => some ⟨.done v, []⟩
  | .items xs :: rest => some ⟨.after, .items (xs ++ [v]) :: rest⟩
  | .field fs key :: rest => some ⟨.after, .fields (setField fs key v) :: rest⟩
  | .fields _ :: _ => none

/-- A string is complete: it is a key where one is expected. -/
def completeString (stack : List Frame) (chars : List Char) : Option Config :=
  match stack with
  | .fields fs :: rest => some ⟨.colon, .field fs (String.ofList chars) :: rest⟩
  | _ => complete stack (.str (String.ofList chars))

/-- The character after a value. -/
def stepAfter (s : Config) (c : Char) : Option Config :=
  match s.mode, s.stack with
  | .done _, _ => if isBlank c then some s else none
  | .after, .items xs :: rest =>
    if isBlank c then some s
    else if c = ',' then some ⟨.value, .items xs :: rest⟩
    else if c = ']' then complete rest (.arr xs)
    else none
  | .after, .fields fs :: rest =>
    if isBlank c then some s
    else if c = ',' then some ⟨.key, .fields fs :: rest⟩
    else if c = '}' then complete rest (.obj fs)
    else none
  | _, _ => none

/-- The first character of a value. -/
def stepValue (stack : List Frame) (c : Char) : Option Config :=
  if isBlank c then some ⟨.value, stack⟩
  else if c = '"' then some ⟨.str [], stack⟩
  else if c = '[' then some ⟨.firstItem, .items [] :: stack⟩
  else if c = '{' then some ⟨.firstKey, .fields [] :: stack⟩
  else if c = '-' ∨ c.isDigit then some ⟨.number [c], stack⟩
  else if c = 'n' then some ⟨.word ['u', 'l', 'l'] .null, stack⟩
  else if c = 't' then some ⟨.word ['r', 'u', 'e'] (.bool true), stack⟩
  else if c = 'f' then some ⟨.word ['a', 'l', 's', 'e'] (.bool false), stack⟩
  else if c = 'N' then some ⟨.word ['a', 'N'] (.nonFinite .nan), stack⟩
  else if c = 'I' then
    some ⟨.word ['n', 'f', 'i', 'n', 'i', 't', 'y'] (.nonFinite .infinity), stack⟩
  else none

/-- The character after a backslash. -/
def stepEscape (stack : List Frame) (chars : List Char) (c : Char) : Option Config :=
  if c = '"' ∨ c = '\\' ∨ c = '/' then some ⟨.str (chars ++ [c]), stack⟩
  else if c = 'b' then some ⟨.str (chars ++ [Char.ofNat 8]), stack⟩
  else if c = 'f' then some ⟨.str (chars ++ [Char.ofNat 12]), stack⟩
  else if c = 'n' then some ⟨.str (chars ++ ['\n']), stack⟩
  else if c = 'r' then some ⟨.str (chars ++ ['\r']), stack⟩
  else if c = 't' then some ⟨.str (chars ++ ['\t']), stack⟩
  else if c = 'u' then some ⟨.hex chars none [], stack⟩
  else none

/-- The four digits of a `\u` are there.  A surrogate without its partner is not a
character. -/
def completeHex (stack : List Frame) (chars : List Char) (high : Option ℕ) (code : ℕ) :
    Option Config :=
  match high with
  | none =>
    if 0xD800 ≤ code ∧ code ≤ 0xDBFF then some ⟨.low chars code false, stack⟩
    else if 0xDC00 ≤ code ∧ code ≤ 0xDFFF then none
    else some ⟨.str (chars ++ [Char.ofNat code]), stack⟩
  | some high =>
    if 0xDC00 ≤ code ∧ code ≤ 0xDFFF then
      some ⟨.str (chars ++
        [Char.ofNat (0x10000 + (high - 0xD800) * 0x400 + (code - 0xDC00))]), stack⟩
    else none

/-- One character. -/
def step (s : Config) (c : Char) : Option Config :=
  match s.mode with
  | .value => stepValue s.stack c
  | .firstItem =>
    if isBlank c then some s
    else if c = ']' then complete s.stack.tail (.arr [])
    else stepValue s.stack c
  | .firstKey =>
    if isBlank c then some s
    else if c = '"' then some ⟨.str [], s.stack⟩
    else if c = '}' then complete s.stack.tail (.obj [])
    else none
  | .key =>
    if isBlank c then some s
    else if c = '"' then some ⟨.str [], s.stack⟩
    else none
  | .colon =>
    if isBlank c then some s
    else if c = ':' then some ⟨.value, s.stack⟩
    else none
  | .after => stepAfter s c
  | .str chars =>
    if c = '"' then completeString s.stack chars
    else if c = '\\' then some ⟨.escape chars, s.stack⟩
    else if c.toNat < 32 then none
    else some ⟨.str (chars ++ [c]), s.stack⟩
  | .escape chars => stepEscape s.stack chars c
  | .hex chars high digits =>
    match hexValue c with
    | none => none
    | some digit =>
      if digits.length < 3 then some ⟨.hex chars high (digits ++ [digit]), s.stack⟩
      else completeHex s.stack chars high
        ((digits ++ [digit]).foldl (fun code digit => 16 * code + digit) 0)
  | .low chars high backslash =>
    if backslash then
      if c = 'u' then some ⟨.hex chars (some high) [], s.stack⟩ else none
    else if c = '\\' then some ⟨.low chars high true, s.stack⟩ else none
  | .number text =>
    if isNumberChar c then some ⟨.number (text ++ [c]), s.stack⟩
    else if text = ['-'] ∧ c = 'I' then
      some ⟨.word ['n', 'f', 'i', 'n', 'i', 't', 'y'] (.nonFinite .negInfinity), s.stack⟩
    else
      match (numberValue text).bind (complete s.stack) with
      | none => none
      | some s' => stepAfter s' c
  | .word rest v =>
    match rest with
    | [] => none
    | [last] => if c = last then complete s.stack v else none
    | next :: more => if c = next then some ⟨.word more v, s.stack⟩ else none
  | .done _ => stepAfter s c

/-- A text, one character after the other. -/
def run (s : Config) (text : List Char) : Option Config := text.foldlM step s

/-- The value at the end of a text. -/
def finish (s : Config) : Option Value :=
  match s.mode, s.stack with
  | .done v, _ => some v
  | .number text, [] => numberValue text
  | _, _ => none

/-- The configuration before a text. -/
def start : Config := ⟨.value, []⟩

/-- `json.loads`. -/
def loads (text : List Char) : Option Value := (run start text).bind finish

@[simp] theorem run_nil (s : Config) : run s [] = some s := rfl

@[simp] theorem run_cons (s : Config) (c : Char) (text : List Char) :
    run s (c :: text) = (step s c).bind (run · text) := rfl

theorem run_singleton (s : Config) (c : Char) : run s [c] = step s c := by
  rw [run_cons]
  cases step s c <;> rfl

theorem run_append (s : Config) (text rest : List Char) :
    run s (text ++ rest) = (run s text).bind (run · rest) := by
  induction text generalizing s with
  | nil => rfl
  | cons c text ih =>
    rw [List.cons_append, run_cons, run_cons]
    cases step s c with
    | none => rfl
    | some s' => exact ih s'

end Json
