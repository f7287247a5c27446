import VgiRpc.Library.Separated

/-!
# JSON without numbers

Documents of booleans, texts, arrays and objects, and their compact text: no blanks, the
entries of an object in the order they are given in, and in a text an escape for a quote, a
backslash and every control character.  Where a document ends can be seen from its text, so
the text determines the document.
-/

namespace VgiRpc.Library

open List

inductive Document where
  | bool (value : Bool)
  | text (value : String)
  | array (items : List Document)
  | object (entries : List (String × Document))

namespace Document

def hexDigit (value : Nat) : Char :=
  if value < 10 then Char.ofNat (0x30 + value) else Char.ofNat (0x57 + value)

/-- The letter behind the backslash of a character with an escape of its own. -/
def shortEscape (char : Char) : Option Char :=
  if char = '"' then some '"'
  else if char = '\\' then some '\\'
  else if char = '\x08' then some 'b'
  else if char = '\x0c' then some 'f'
  else if char = '\n' then some 'n'
  else if char = '\r' then some 'r'
  else if char = '\t' then some 't'
  else none

def escape (char : Char) : List Char :=
  match shortEscape char with
  | some letter => ['\\', letter]
  | none =>
    if char.toNat < 0x20 then
      ['\\', 'u', '0', '0', hexDigit (char.toNat / 16), hexDigit (char.toNat % 16)]
    else [char]

def quote (text : String) : List Char := '"' :: (text.toList.flatMap escape ++ ['"'])

mutual

def write : Document → List Char
  | .bool value => if value then ['t', 'r', 'u', 'e'] else ['f', 'a', 'l', 's', 'e']
  | .text value => quote value
  | .array [] => ['[', ']']
  | .array (item :: items) => '[' :: (write item ++ (writeItems items ++ [']']))
  | .object [] => ['\x7b', '\x7d']
  | .object (entry :: entries) =>
    '\x7b' :: (quote entry.1 ++ ':' :: (write entry.2 ++ (writeEntries entries ++ ['\x7d'])))

def writeItems : List Document → List Char
  | [] => []
  | item :: items => ',' :: (write item ++ writeItems items)

def writeEntries : List (String × Document) → List Char
  | [] => []
  | entry :: entries => ',' :: (quote entry.1 ++ ':' :: (write entry.2 ++ writeEntries entries))

end

theorem hexDigit_inj {first second : Nat} (small : first < 16) (also : second < 16)
    (same : hexDigit first = hexDigit second) : first = second := by
  have distinct : ∀ first second : Fin 16, hexDigit first = hexDigit second → first = second := by
    decide
  exact Fin.mk.inj (distinct ⟨first, small⟩ ⟨second, also⟩ same)

def unescape (letter : Char) : Char :=
  if letter = 'b' then '\x08'
  else if letter = 'f' then '\x0c'
  else if letter = 'n' then '\n'
  else if letter = 'r' then '\r'
  else if letter = 't' then '\t'
  else letter

variable {char : Char}

theorem shortEscape_some {letter : Char} (short : shortEscape char = some letter) :
    unescape letter = char ∧ letter ≠ 'u' := by
  unfold shortEscape at short
  split_ifs at short with quote backslash backspace feed line carriage tab
  all_goals
    cases short
    subst_vars
    decide

theorem shortEscape_none (plain : shortEscape char = none) : char ≠ '"' ∧ char ≠ '\\' := by
  constructor
  · rintro rfl
    revert plain
    decide
  · rintro rfl
    revert plain
    decide

theorem escape_cases (char : Char) :
    (∃ letter, shortEscape char = some letter ∧ escape char = ['\\', letter]) ∨
    (char.toNat < 0x20 ∧ escape char =
      ['\\', 'u', '0', '0', hexDigit (char.toNat / 16), hexDigit (char.toNat % 16)]) ∨
    (char ≠ '"' ∧ char ≠ '\\' ∧ escape char = [char]) := by
  unfold escape
  cases short : shortEscape char with
  | some letter => exact .inl ⟨letter, rfl, rfl⟩
  | none =>
    obtain ⟨quote, backslash⟩ := shortEscape_none short
    dsimp only
    split
    · next control => exact .inr (.inl ⟨control, rfl⟩)
    · exact .inr (.inr ⟨quote, backslash, rfl⟩)

variable {rest more : List Char}

theorem escape_append_inj {first second : Char}
    (same : escape first ++ rest = escape second ++ more) : first = second ∧ rest = more := by
  obtain ⟨letter, short, written⟩ | ⟨control, written⟩ | ⟨quote, backslash, written⟩ :=
    escape_cases first <;>
  obtain ⟨other, alsoShort, also⟩ | ⟨alsoControl, also⟩ | ⟨alsoQuote, alsoBackslash, also⟩ :=
    escape_cases second <;>
  rw [written, also] at same <;>
  simp only [cons_append, nil_append, List.cons.injEq, true_and] at same
  · obtain ⟨rfl, tail⟩ := same
    rw [← (shortEscape_some short).1, ← (shortEscape_some alsoShort).1]
    exact ⟨rfl, tail⟩
  · exact absurd same.1 (shortEscape_some short).2
  · exact absurd same.1.symm alsoBackslash
  · exact absurd same.1.symm (shortEscape_some alsoShort).2
  · obtain ⟨high, low, tail⟩ := same
    have high := hexDigit_inj (by omega) (by omega) high
    have low := hexDigit_inj (by omega) (by omega) low
    exact ⟨Char.toNat_inj.mp (by omega), tail⟩
  · exact absurd same.1.symm alsoBackslash
  · exact absurd same.1 backslash
  · exact absurd same.1 backslash
  · exact same

theorem escape_ne_quote : escape char ++ rest ≠ '"' :: more := by
  intro same
  obtain ⟨letter, -, written⟩ | ⟨-, written⟩ | ⟨other, -, written⟩ := escape_cases char <;>
  rw [written] at same <;>
  simp only [cons_append, nil_append, List.cons.injEq] at same
  · exact absurd same.1 (by decide)
  · exact absurd same.1 (by decide)
  · exact other same.1

theorem quote_append_inj {first second : String}
    (same : quote first ++ rest = quote second ++ more) : first = second ∧ rest = more := by
  simp only [quote, cons_append, append_assoc, List.cons.injEq, true_and, nil_append] at same
  obtain ⟨chars, tail⟩ := flatMap_append_inj (fun _ _ _ _ _ _ => escape_append_inj)
    (fun _ _ _ => escape_ne_quote.symm) (fun _ _ _ => escape_ne_quote.symm) same
  exact ⟨String.toList_inj.mp chars, (List.cons.inj tail).2⟩

/-- The first character tells the kinds of documents apart. -/
def lead : Document → Char
  | .bool value => if value then 't' else 'f'
  | .text _ => '"'
  | .array _ => '['
  | .object _ => '\x7b'

variable (document : Document)

theorem write_lead : ∃ tail, write document = lead document :: tail := by
  cases document with
  | bool value => cases value <;> exact ⟨_, rfl⟩
  | text value => exact ⟨_, rfl⟩
  | array items => cases items <;> exact ⟨_, rfl⟩
  | object entries => cases entries <;> exact ⟨_, rfl⟩

theorem ctorIdx_lead : document.ctorIdx =
      if lead document = '"' then 1 else if lead document = '[' then 2
      else if lead document = '\x7b' then 3 else 0 := by
  cases document with
  | bool value => cases value <;> rfl
  | _ => rfl

theorem ctorIdx_eq {first second : Document} (same : write first ++ rest = write second ++ more) :
    first.ctorIdx = second.ctorIdx := by
  obtain ⟨tail, written⟩ := write_lead first
  obtain ⟨other, also⟩ := write_lead second
  rw [written, also] at same
  have leads : lead first = lead second := (List.cons.inj same).1
  rw [ctorIdx_lead, ctorIdx_lead, leads]

theorem write_ne_bracket {document : Document} : write document ++ rest ≠ ']' :: more := by
  intro same
  obtain ⟨tail, written⟩ := write_lead document
  rw [written] at same
  have bracket : lead document = ']' := (List.cons.inj same).1
  cases document with
  | bool value => cases value <;> exact absurd bracket (by decide)
  | _ => exact absurd bracket (by simp [lead])

mutual

/-- Where a document ends can be seen from its text. -/
theorem write_append_inj {first second : Document} {rest more : List Char}
    (same : write first ++ rest = write second ++ more) : first = second ∧ rest = more := by
  have kinds := ctorIdx_eq same
  match first with
  | .bool value =>
    cases second with
    | bool other => cases value <;> cases other <;> simp_all [write]
    | _ => cases kinds
  | .text value =>
    cases second with
    | text other =>
      obtain ⟨rfl, tail⟩ := quote_append_inj same
      exact ⟨rfl, tail⟩
    | _ => cases kinds
  | .array [] =>
    cases second with
    | array others =>
      cases others with
      | nil => exact ⟨rfl, by simpa [write] using same⟩
      | cons other others =>
        simp only [write, cons_append, append_assoc, List.cons.injEq, true_and, nil_append] at same
        exact absurd same.symm write_ne_bracket
    | _ => cases kinds
  | .array (item :: items) =>
    cases second with
    | array others =>
      cases others with
      | nil =>
        simp only [write, cons_append, append_assoc, List.cons.injEq, true_and, nil_append] at same
        exact absurd same write_ne_bracket
      | cons other others =>
        simp only [write, cons_append, append_assoc, List.cons.injEq, true_and, nil_append] at same
        obtain ⟨rfl, behind⟩ := write_append_inj same
        obtain ⟨rfl, tail⟩ := writeItems_append_inj behind
        exact ⟨rfl, tail⟩
    | _ => cases kinds
  | .object [] =>
    cases second with
    | object others =>
      cases others with
      | nil => exact ⟨rfl, by simpa [write] using same⟩
      | cons other others => simp [write, quote] at same
    | _ => cases kinds
  | .object (entry :: entries) =>
    cases second with
    | object others =>
      cases others with
      | nil => simp [write, quote] at same
      | cons other others =>
        have behind : writeEntries (entry :: entries) ++ '\x7d' :: rest =
            writeEntries (other :: others) ++ '\x7d' :: more := by
          simpa [write, writeEntries] using same
        obtain ⟨same, tail⟩ := writeEntries_append_inj behind
        exact ⟨congrArg object same, tail⟩
    | _ => cases kinds

theorem writeItems_append_inj {first second : List Document} {rest more : List Char}
    (same : writeItems first ++ ']' :: rest = writeItems second ++ ']' :: more) :
    first = second ∧ rest = more := by
  match first, second with
  | [], [] => exact ⟨rfl, (List.cons.inj same).2⟩
  | [], _ :: _ | _ :: _, [] => simp [writeItems] at same
  | item :: items, other :: others =>
    simp only [writeItems, List.cons_append, List.append_assoc, List.cons.injEq, true_and] at same
    obtain ⟨rfl, behind⟩ := write_append_inj same
    obtain ⟨rfl, tail⟩ := writeItems_append_inj behind
    exact ⟨rfl, tail⟩

theorem writeEntries_append_inj {first second : List (String × Document)} {rest more : List Char}
    (same : writeEntries first ++ '\x7d' :: rest = writeEntries second ++ '\x7d' :: more) :
    first = second ∧ rest = more := by
  match first, second with
  | [], [] => exact ⟨rfl, (List.cons.inj same).2⟩
  | [], _ :: _ | _ :: _, [] => simp [writeEntries] at same
  | entry :: entries, other :: others =>
    simp only [writeEntries, cons_append, append_assoc, List.cons.injEq, true_and] at same
    obtain ⟨key, behind⟩ := quote_append_inj same
    obtain ⟨value, behind⟩ := write_append_inj (List.cons.inj behind).2
    obtain ⟨rfl, tail⟩ := writeEntries_append_inj behind
    exact ⟨by rw [Prod.ext key value], tail⟩

end

end Document

end VgiRpc.Library
