import Mathlib.Algebra.GroupWithZero.Nat
import Mathlib.Data.List.Basic

/-!
# Resume tokens

The position of an HTTP stream as one text: the cursor, preceded by its length in
bytes and followed by the call token when there is one.
-/

namespace VgiRpc.Client

open List

def byteLength (text : List Char) : Nat := (text.map Char.utf8Size).sum

/-- Split a text at a byte index; nothing if the index is past the end or inside a
character. -/
def splitAtByte : Nat → List Char → Option (List Char × List Char)
  | 0, text => some ([], text)
  | _ + 1, [] => none
  | index + 1, char :: rest =>
    if char.utf8Size ≤ index + 1 then
      (splitAtByte (index + 1 - char.utf8Size) rest).map fun parts => (char :: parts.1, parts.2)
    else none

def splitOnceColon : List Char → Option (List Char × List Char)
  | [] => none
  | char :: rest =>
    if char = ':' then some ([], rest)
    else (splitOnceColon rest).map fun parts => (char :: parts.1, parts.2)

def withoutSign : List Char → List Char
  | [] => []
  | char :: rest => if char = '+' then rest else char :: rest

/-- `str::parse::<usize>`. -/
def parseUsize (text : List Char) : Option Nat :=
  if withoutSign text ≠ [] ∧ (withoutSign text).all Char.isDigit ∧
      Nat.ofDigitChars 10 (withoutSign text) 0 < 2 ^ 64 then
    some (Nat.ofDigitChars 10 (withoutSign text) 0)
  else none

def packResumeToken (cursor : String) (callToken : Option String) : String :=
  match callToken with
  | some call =>
    String.ofList (Nat.toDigits 10 (byteLength cursor.toList) ++
      ':' :: (cursor.toList ++ call.toList))
  | none => cursor

/-- A text without a readable length in front of it is a cursor alone. -/
def unpackResumeToken (token : String) : String × Option String :=
  match splitOnceColon token.toList with
  | none => (token, none)
  | some (length, rest) =>
    match parseUsize length with
    | none => (token, none)
    | some cursorLength =>
      match splitAtByte cursorLength rest with
      | none => (token, none)
      | some (cursor, call) =>
        (String.ofList cursor, if call = [] then none else some (String.ofList call))

theorem splitAtByte_append (first rest : List Char) :
    splitAtByte (byteLength first) (first ++ rest) = some (first, rest) := by
  induction first with
  | nil => simp [byteLength, splitAtByte]
  | cons char tail ih =>
    have positive : 0 < char.utf8Size := Char.utf8Size_pos char
    obtain ⟨index, size⟩ : ∃ index, byteLength (char :: tail) = index + 1 :=
      ⟨byteLength (char :: tail) - 1, by simp only [byteLength, map_cons, sum_cons]; omega⟩
    have whole : index + 1 = char.utf8Size + byteLength tail := by
      rw [← size]
      simp [byteLength]
    rw [size, cons_append, splitAtByte, if_pos (by omega)]
    have left : index + 1 - char.utf8Size = byteLength tail := by omega
    rw [left, ih]
    rfl

theorem splitOnceColon_none {text : List Char} (plain : ':' ∉ text) :
    splitOnceColon text = none := by
  induction text with
  | nil => rfl
  | cons char rest ih =>
    rw [mem_cons, not_or] at plain
    rw [splitOnceColon, if_neg (Ne.symm plain.1), ih plain.2]
    rfl

theorem splitOnceColon_append {first : List Char} (plain : ':' ∉ first) (rest : List Char) :
    splitOnceColon (first ++ ':' :: rest) = some (first, rest) := by
  induction first with
  | nil => rfl
  | cons char tail ih =>
    rw [mem_cons, not_or] at plain
    rw [cons_append, splitOnceColon, if_neg (Ne.symm plain.1), ih plain.2]
    rfl

variable {value : Nat}

theorem toDigits_isDigit {char : Char} (member : char ∈ Nat.toDigits 10 value) : char.isDigit = true :=
  Nat.isDigit_of_mem_toDigits (by decide) (by decide) member

theorem withoutSign_toDigits (value : Nat) :
    withoutSign (Nat.toDigits 10 value) = Nat.toDigits 10 value := by
  cases digits : Nat.toDigits 10 value with
  | nil => rfl
  | cons char rest =>
    have digit : char.isDigit = true := toDigits_isDigit (digits ▸ mem_cons_self ..)
    have unsigned : char ≠ '+' := by
      rintro rfl
      cases digit
    rw [withoutSign, if_neg unsigned]

theorem parseUsize_toDigits (small : value < 2 ^ 64) :
    parseUsize (Nat.toDigits 10 value) = some value := by
  have back : Nat.ofDigitChars 10 (Nat.toDigits 10 value) 0 = value :=
    Nat.ofDigitChars_toDigits (by decide) (by decide)
  have digits : (Nat.toDigits 10 value).all Char.isDigit = true :=
    all_eq_true.mpr fun _ member => toDigits_isDigit member
  rw [parseUsize, withoutSign_toDigits, back, if_pos ⟨Nat.toDigits_ne_nil, digits, small⟩]

/-- The tokens a server hands out are base64 texts: no colon, and for the call token
not empty. -/
structure TokenText (cursor : String) (callToken : Option String) : Prop where
  plain : ':' ∉ cursor.toList
  sized : byteLength cursor.toList < 2 ^ 64
  call : callToken ≠ some ""

theorem unpackResumeToken_pack {cursor : String} {callToken : Option String}
    (text : TokenText cursor callToken) :
    unpackResumeToken (packResumeToken cursor callToken) = (cursor, callToken) := by
  cases callToken with
  | none => rw [packResumeToken, unpackResumeToken, splitOnceColon_none text.plain]
  | some call =>
    have digits : ':' ∉ Nat.toDigits 10 (byteLength cursor.toList) := by
      intro member
      have digit := toDigits_isDigit member
      cases digit
    have nonempty : call.toList ≠ [] := by
      intro empty
      exact text.call (congrArg some (String.toList_eq_nil_iff.mp empty))
    rw [packResumeToken, unpackResumeToken, String.toList_ofList, splitOnceColon_append digits]
    simp only [parseUsize_toDigits text.sized, splitAtByte_append, if_neg nonempty,
      String.ofList_toList]

end VgiRpc.Client
