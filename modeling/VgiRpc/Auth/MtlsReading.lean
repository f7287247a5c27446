import VgiRpc.Auth.Mtls
import VgiRpc.Auth.XfccEncoding
import VgiRpc.Library.Separated

/-!
# What the authenticators read of a header

A proxy writes a hop for each certificate, with escapes in the values between quotes.  Up to the
first value with a quote or a backslash of its own the fields are read as they were written, and
that one is not: the reader meets a quote earlier, or more backslashes, than in the value.  A
bracket that is left open takes the next hop in.
-/

namespace VgiRpc.Auth.Mtls

open Library List Scanner OrderedMap

/-! ## Blanks -/

variable {blanks : List Char}

theorem trim_append_blanks (blank : ∀ char ∈ blanks, isWhitespace char = true) (text : List Char) :
    trim (text ++ blanks) = trim text := by
  have none : blanks.dropWhile isWhitespace = [] := dropWhile_eq_nil_iff.mpr blank
  unfold trim
  rw [dropWhile_append]
  split
  · next empty => rw [none, isEmpty_iff.mp empty]
  · rw [rdropWhile, reverse_append,
      dropWhile_append_of_pos fun char member => blank char (mem_reverse.mp member)]
    rfl

theorem trim_rdropWhile (text : List Char) : trim (text.rdropWhile isWhitespace) = trim text := by
  obtain ⟨blanks, whole, blank⟩ := rdropWhile_append isWhitespace text
  conv_rhs => rw [whole]
  exact (trim_append_blanks blank _).symm

variable {char : Char} {text : List Char}

theorem mem_trim (member : char ∈ text) (kept : isWhitespace char = false) : char ∈ trim text := by
  rw [← takeWhile_append_dropWhile (p := isWhitespace) (l := text), mem_append] at member
  rcases member with front | back
  · rw [mem_takeWhile_imp front] at kept
    cases kept
  · obtain ⟨front, more, split⟩ := append_of_mem back
    rw [trim, split, rdropWhile_append_cons kept]
    exact mem_append_right _ (mem_cons_self ..)

/-! ## Quotes around a value -/

variable (rest : List Char)

theorem stripQuotes_quoted : stripQuotes ('"' :: rest) =
      if rest.getLast? = some '"' then rest.dropLast else '"' :: rest := rfl

theorem stripQuotes_plain (plain : '"' ∉ text) : stripQuotes text = text := by
  unfold stripQuotes
  split
  · exact absurd (mem_cons_self ..) plain
  · rfl

theorem mem_stripQuotes (member : char ∈ text) (other : char ≠ '"') : char ∈ stripQuotes text := by
  unfold stripQuotes
  split
  · next rest =>
    have inside : char ∈ rest := (mem_cons.mp member).resolve_left other
    split
    · next last =>
      rw [← dropLast_append_getLast? _ last, mem_append] at inside
      exact inside.resolve_right fun same => other (mem_singleton.mp same)
    · exact member
  · exact member

theorem length_stripQuotes : rest.length ≤ (stripQuotes ('"' :: rest)).length + 1 := by
  rw [stripQuotes_quoted]
  split
  · rw [length_dropLast]
    omega
  · rw [length_cons]
    omega

def readValue (text : List Char) : List Char := stripQuotes (trim text)

theorem readValue_quote (text : List Char) :
    readValue ('"' :: text) = stripQuotes ('"' :: text.rdropWhile isWhitespace) := by
  have first : isWhitespace '"' = false := by decide
  have kept := rdropWhile_append_cons first [] text
  rw [readValue, trim, dropWhile_cons_of_neg (by simp [first])]
  exact congrArg stripQuotes kept

theorem readValue_quoted (value : List Char) : readValue ('"' :: value ++ ['"']) = value := by
  rw [readValue, trim_quoted, cons_append, stripQuotes_quoted]
  simp

/-! ## Escapes -/

def isSpecial (char : Char) : Bool := char = '"' || char = '\\'

theorem escapeXfcc_append (front rest : List Char) :
    escapeXfcc (front ++ rest) = escapeXfcc front ++ escapeXfcc rest := flatMap_append

theorem escapeXfcc_cons (char : Char) (rest : List Char) : escapeXfcc (char :: rest) =
      (if char = '"' || char = '\\' then ['\\', char] else [char]) ++ escapeXfcc rest := rfl

theorem escapeXfcc_plain {value : List Char} (plain : ∀ char ∈ value, isSpecial char = false) :
    escapeXfcc value = value := by
  induction value with
  | nil => rfl
  | cons char rest ih =>
    have first := plain char (mem_cons_self ..)
    rw [isSpecial] at first
    rw [escapeXfcc_cons, first, if_neg Bool.false_ne_true,
      ih (forall_mem_cons.mp plain).2, singleton_append]

theorem length_escapeXfcc (value : List Char) :
    (escapeXfcc value).length = value.length + value.countP isSpecial := by
  induction value with
  | nil => rfl
  | cons char rest ih =>
    rw [escapeXfcc_cons, length_append, ih, countP_cons, length_cons, isSpecial]
    cases char = '"' || char = '\\' with
    | true =>
      simp only [if_true, length_cons, length_nil]
      omega
    | false =>
      simp only [Bool.false_eq_true, if_false, length_cons, length_nil]
      omega

theorem mem_escapeXfcc {value : List Char} (member : char ∈ escapeXfcc value) :
    char = '\\' ∨ char ∈ value := by
  obtain ⟨other, inside, member⟩ := mem_flatMap.mp member
  split at member
  · rcases mem_pair.mp member with same | rfl
    · exact .inl same
    · exact .inr inside
  · rw [mem_singleton.mp member]
    exact .inr inside

/-! ## Both divisions at once -/

/-- Where a field of the first hop ends: at a semicolon or at a comma. -/
def fieldEnd : Scanner Nesting Char := topLevel.also Prod.fst keyValues

variable (nesting : Nesting)

theorem nesting_agrees (char : Char) :
    (topLevel.step nesting char).1 = keyValues.step nesting.1 char := by
  simp only [topLevel, keyValues]
  split
  · rfl
  · rfl

theorem fieldEnd_cuts (char : Char) : fieldEnd.cuts nesting char =
      ((char = ',' && !nesting.1 && nesting.2 = 0) || (char = ';' && !nesting.1)) := rfl

theorem fieldEnd_quote : fieldEnd.step nesting '"' = (!nesting.1, nesting.2) := rfl

theorem fieldEnd_step (other : char ≠ '"') (nesting : Nesting) : fieldEnd.step nesting char =
      (nesting.1, if nesting.1 then nesting.2 else bracket nesting.2 char) := if_neg other

/-- A text without the two characters is one field, or a part of one, in every state. -/
theorem whole_of_apart (apart : ',' ∉ text ∧ ';' ∉ text) (nesting : Nesting) :
    fieldEnd.whole nesting text = true := by
  induction text generalizing nesting with
  | nil => rfl
  | cons char rest ih =>
    obtain ⟨comma, semicolon⟩ := apart
    rw [mem_cons, not_or] at comma semicolon
    refine whole_cons.mpr ⟨?_, ih ⟨comma.2, semicolon.2⟩ _⟩
    simp [fieldEnd_cuts, Ne.symm comma.1, Ne.symm semicolon.1]

theorem run_unquoted (plain : '"' ∉ text) (depth : Nat) :
    fieldEnd.run (false, depth) text = (false, text.foldl bracket depth) := by
  induction text generalizing depth with
  | nil => rfl
  | cons char rest ih =>
    rw [mem_cons, not_or] at plain
    change fieldEnd.run (fieldEnd.step (false, depth) char) rest = _
    rw [fieldEnd_step (Ne.symm plain.1)]
    exact ih plain.2 _

theorem foldl_bracket_plain (free : ∀ char ∈ text, char ∉ ['(', '[', ')', ']']) (depth : Nat) :
    text.foldl bracket depth = depth := by
  induction text with
  | nil => rfl
  | cons char rest ih =>
    have first := free char (mem_cons_self ..)
    simp only [mem_cons, not_mem_nil, or_false, not_or] at first
    obtain ⟨round, square, endRound, endSquare⟩ := first
    have same : bracket depth char = depth := by
      simp [bracket, round, square, endRound, endSquare]
    rw [foldl_cons, same, ih (forall_mem_cons.mp free).2]

theorem whole_quoted (plain : '"' ∉ text) (depth : Nat) :
    fieldEnd.whole (true, depth) text = true ∧ fieldEnd.run (true, depth) text = (true, depth) := by
  induction text with
  | nil => exact ⟨rfl, rfl⟩
  | cons char rest ih =>
    rw [mem_cons, not_or] at plain
    obtain ⟨undivided, state⟩ := ih plain.2
    have next : fieldEnd.step (true, depth) char = (true, depth) := fieldEnd_step (Ne.symm plain.1) _
    constructor
    · refine whole_cons.mpr ⟨by simp [fieldEnd_cuts], ?_⟩
      rw [next]
      exact undivided
    · change fieldEnd.run (fieldEnd.step (true, depth) char) rest = _
      rw [next]
      exact state

theorem piece_quoted (plain : '"' ∉ text) (depth : Nat) (rest : List Char) :
    fieldEnd.piece (true, depth) (text ++ rest) = text ++ fieldEnd.piece (true, depth) rest := by
  obtain ⟨undivided, state⟩ := whole_quoted plain depth
  rw [piece_append undivided, state]

theorem piece_quote :
    fieldEnd.piece nesting ('"' :: rest) = '"' :: fieldEnd.piece (!nesting.1, nesting.2) rest := by
  rw [piece, if_neg (by simp [fieldEnd_cuts]), fieldEnd_quote]

section

variable {value tail : List Char} {depth : Nat}

/-- What is read of a value between quotes, up to the end of the field. -/
def seen (depth : Nat) (value tail : List Char) : List Char :=
  (fieldEnd.piece (true, depth) (escapeXfcc value ++ '"' :: tail)).rdropWhile isWhitespace

theorem quote_notMem_escapeXfcc (plain : '"' ∉ value) : '"' ∉ escapeXfcc value := by
  intro member
  rcases mem_escapeXfcc member with same | member
  · cases same
  · exact plain member

variable {front back : List Char}

/-- What is seen goes on behind its first quote. -/
theorem seen_spelled (depth : Nat) (inside : '"' ∉ front)
    (spelled : escapeXfcc value ++ '"' :: tail = front ++ '"' :: back) :
    ∃ more, seen depth value tail = front ++ '"' :: more := by
  refine ⟨(fieldEnd.piece (false, depth) back).rdropWhile isWhitespace, ?_⟩
  rw [seen, spelled, piece_quoted inside, piece_quote, rdropWhile_append_cons (by decide)]
  rfl

/-- The first quote of a value is seen behind its escapes. -/
theorem seen_quote (depth : Nat) (tail : List Char) (plain : '"' ∉ front)
    (same : value = front ++ '"' :: back) :
    ∃ more, seen depth value tail = (escapeXfcc front ++ ['\\']) ++ '"' :: more ∧
      '"' ∉ escapeXfcc front ++ ['\\'] := by
  have inside : '"' ∉ escapeXfcc front ++ ['\\'] := by
    simpa using quote_notMem_escapeXfcc plain
  have spelled : escapeXfcc value ++ '"' :: tail =
      (escapeXfcc front ++ ['\\']) ++ '"' :: (escapeXfcc back ++ '"' :: tail) := by
    rw [same, escapeXfcc_append, escapeXfcc_cons]
    simp
  obtain ⟨more, shown⟩ := seen_spelled depth inside spelled
  exact ⟨more, shown, inside⟩

/-- Without the quotes around it, no value with a quote is read as it was. -/
theorem dropLast_seen_ne (quote : '"' ∈ value) : (seen depth value tail).dropLast ≠ value := by
  obtain ⟨front, back, same, plain⟩ := eq_append_cons_of_mem quote
  obtain ⟨more, shown, inside⟩ := seen_quote depth tail plain same
  have longer := length_escapeXfcc front
  intro read
  rw [shown] at read
  rcases eq_nil_or_concat more with rfl | ⟨init, last, rfl⟩
  · rw [dropLast_concat] at read
    rw [← read] at quote
    exact inside quote
  · rw [concat_eq_append, ← cons_append, ← append_assoc, dropLast_concat, same] at read
    have lengths := congrArg List.length (append_cons_inj inside plain read).1
    rw [length_append, length_singleton] at lengths
    omega

/-- With the quote in front of it, no value is read as it was: the quotes and backslashes at its
front would have to be more than they are. -/
theorem quote_seen_ne : '"' :: seen depth value tail ≠ value := by
  intro read
  have front : ∀ char ∈ value.takeWhile isSpecial, isSpecial char = true :=
    fun char member => mem_takeWhile_imp member
  have escaped : ∀ char ∈ escapeXfcc (value.takeWhile isSpecial), isSpecial char = true := by
    intro char member
    rcases mem_escapeXfcc member with rfl | member
    · rfl
    · exact front char member
  have kept : ∀ char ∈ escapeXfcc (value.takeWhile isSpecial), isWhitespace char = false := by
    intro char member
    have special := escaped char member
    simp only [isSpecial, Bool.or_eq_true, decide_eq_true_eq] at special
    rcases special with rfl | rfl
    · decide
    · decide
  have apart : ',' ∉ escapeXfcc (value.takeWhile isSpecial) ∧
      ';' ∉ escapeXfcc (value.takeWhile isSpecial) :=
    ⟨fun member => absurd (escaped _ member) (by decide),
      fun member => absurd (escaped _ member) (by decide)⟩
  have spelled : escapeXfcc value ++ '"' :: tail = escapeXfcc (value.takeWhile isSpecial) ++
      (escapeXfcc (value.dropWhile isSpecial) ++ '"' :: tail) := by
    rw [← append_assoc, ← escapeXfcc_append, takeWhile_append_dropWhile]
  rw [seen, spelled, piece_append (whole_of_apart apart _), rdropWhile_append_of_neg kept,
    ← cons_append] at read
  have quoted : ∀ char ∈ '"' :: escapeXfcc (value.takeWhile isSpecial), isSpecial char = true :=
    forall_mem_cons.mpr ⟨rfl, escaped⟩
  have fronts := congrArg (fun text => (text.takeWhile isSpecial).length) read
  rw [takeWhile_append_of_pos quoted, length_append, length_cons, length_escapeXfcc] at fronts
  omega

/-- A value with a quote or a backslash is read as something else. -/
theorem readValue_special_ne {char : Char} (member : char ∈ value)
    (special : isSpecial char = true) :
    readValue (fieldEnd.piece (false, depth) ('"' :: escapeXfcc value ++ '"' :: tail)) ≠ value := by
  rw [cons_append, piece_quote, readValue_quote]
  show stripQuotes ('"' :: seen depth value tail) ≠ value
  by_cases quote : '"' ∈ value
  · rw [stripQuotes_quoted]
    split
    · exact dropLast_seen_ne quote
    · exact quote_seen_ne
  · obtain ⟨more, shown⟩ := seen_spelled depth (quote_notMem_escapeXfcc quote) rfl
    have atLeast := length_stripQuotes (seen depth value tail)
    have longer := length_escapeXfcc value
    have some_special : 0 < value.countP isSpecial := countP_pos_iff.mpr ⟨char, member, special⟩
    intro read
    rw [read, shown, length_append, length_cons] at atLeast
    omega

end

/-- The text behind a hop: nothing, or a comma and the next one. -/
def Behind (ending : List Char) : Prop := ending = [] ∨ ∃ more, ending = ',' :: more

theorem comma_mem_readValue (front more : List Char) : ',' ∈ readValue (front ++ ',' :: more) :=
  mem_stripQuotes (mem_trim (by simp) (by decide)) (by decide)

end VgiRpc.Auth.Mtls

namespace VgiRpc.Auth.XfccField

open Library List Scanner OrderedMap

open Mtls

variable (field : XfccField)

def valueText : List Char :=
  if field.quoted then '"' :: escapeXfcc field.value ++ ['"'] else field.value

def entry : String × String := (field.lowerKey, String.ofList field.value)

/-- A value between quotes has no quote and no backslash, and one without has no blank at either
end. -/
def clear : Bool :=
  if field.quoted then field.value.all fun char => !isSpecial char
  else trim field.value == field.value

/-- The brackets that are open behind a field; those between quotes are not counted. -/
def depthAfter (depth : Nat) (field : XfccField) : Nat :=
  if field.quoted then depth else field.value.foldl bracket depth

variable (field : XfccField)

theorem spelling_eq : field.spelling = field.key.toList ++ '=' :: field.valueText := rfl

theorem key_facts : ',' ∉ field.key.toList ∧ '=' ∉ field.key.toList ∧
      (∀ char ∈ field.key.toList, isWhitespace char = false) ∧ field.key.toList ≠ [] := by
  have facts : ∀ key ∈ envoyKeys, ',' ∉ key.toList ∧ '=' ∉ key.toList ∧
      (key.toList.all fun char => decide (isWhitespace char = false)) = true ∧ key.toList ≠ [] := by
    decide +kernel
  obtain ⟨comma, equals, visible, some_char⟩ := facts field.key field.known
  exact ⟨comma, equals, forall_mem_of_all visible, some_char⟩

theorem key_scanned (depth : Nat) :
    fieldEnd.whole (false, depth) (field.key.toList ++ ['=']) = true ∧
      fieldEnd.run (false, depth) (field.key.toList ++ ['=']) = (false, depth) := by
  have facts : ∀ key ∈ envoyKeys, (',' ∉ key.toList ++ ['='] ∧ ';' ∉ key.toList ++ ['=']) ∧
      '"' ∉ key.toList ++ ['='] ∧
      ((key.toList ++ ['=']).all fun char => decide (char ∉ ['(', '[', ')', ']'])) = true := by
    decide +kernel
  obtain ⟨apart, noQuote, closed⟩ := facts field.key field.known
  rw [run_unquoted noQuote, foldl_bracket_plain (forall_mem_of_all closed)]
  exact ⟨whole_of_apart apart _, rfl⟩

theorem piece_spelling (depth : Nat) (tail : List Char) :
    fieldEnd.piece (false, depth) (field.spelling ++ tail) =
      field.key.toList ++ '=' :: fieldEnd.piece (false, depth) (field.valueText ++ tail) := by
  obtain ⟨undivided, state⟩ := field.key_scanned depth
  rw [spelling_eq, append_cons, append_assoc, piece_append undivided, state, ← append_cons]

theorem readPart_key (rest : List Char) : readPart (trim (field.key.toList ++ '=' :: rest)) =
      some (field.lowerKey, String.ofList (readValue rest)) := by
  obtain ⟨-, equals, visible, nonempty⟩ := field.key_facts
  have trimmed := (envoyKey_facts field.known).2.1
  obtain ⟨first, others, spelled⟩ := exists_cons_of_ne_nil nonempty
  have shown : isWhitespace first = false := visible first (by rw [spelled]; exact mem_cons_self ..)
  have front : trim (field.key.toList ++ '=' :: rest) =
      field.key.toList ++ '=' :: rest.rdropWhile isWhitespace := by
    rw [trim, spelled, cons_append, dropWhile_cons_of_neg (by simp [shown]),
      ← cons_append, ← spelled, rdropWhile_append_cons (by decide)]
  rw [front, readPart, splitOnce_key equals, Option.bind_some]
  dsimp only
  rw [trimmed, trim_rdropWhile, spelled, if_neg (by simp), ← spelled]
  rfl

/-! ### The value -/

theorem clear_quoted (quoted : field.quoted = true) :
    field.clear = true ↔ ∀ char ∈ field.value, isSpecial char = false := by
  rw [clear, if_pos quoted, all_eq_true]
  simp

theorem clear_unquoted (unquoted : field.quoted = false) :
    field.clear = true ↔ trim field.value = field.value := by
  rw [clear, if_neg (by simp [unquoted]), beq_iff_eq]

theorem value_apart (unquoted : field.quoted = false) :
    ',' ∉ field.value ∧ ';' ∉ field.value ∧ '"' ∉ field.value :=
  ⟨fun member => field.plain unquoted _ member (by simp),
    fun member => field.plain unquoted _ member (by simp),
    fun member => field.plain unquoted _ member (by simp)⟩

/-- A clear value is passed with its quotes, whatever it holds. -/
theorem value_scanned (clear : field.clear = true) (depth : Nat) :
    fieldEnd.whole (false, depth) field.valueText = true ∧
      fieldEnd.run (false, depth) field.valueText = (false, field.depthAfter depth) := by
  cases quoted : field.quoted with
  | true =>
    have plain := (field.clear_quoted quoted).mp clear
    have noQuote : '"' ∉ field.value := fun member => absurd (plain _ member) (by decide)
    obtain ⟨undivided, state⟩ := whole_quoted noQuote depth
    have spelled : field.valueText = ['"'] ++ field.value ++ ['"'] := by
      rw [valueText, if_pos quoted, escapeXfcc_plain plain]
      rfl
    have first : fieldEnd.run (false, depth) ['"'] = (true, depth) := rfl
    constructor
    · rw [spelled, whole_append, whole_append, first]
      refine ⟨⟨by simp [whole, fieldEnd_cuts], undivided⟩, ?_⟩
      simp [whole, fieldEnd_cuts]
    · rw [spelled, depthAfter, if_pos quoted, run, foldl_append, foldl_append]
      change fieldEnd.run (fieldEnd.run (true, depth) field.value) ['"'] = _
      rw [state]
      rfl
  | false =>
    obtain ⟨comma, semicolon, noQuote⟩ := field.value_apart quoted
    have spelled : field.valueText = field.value := if_neg (by simp [quoted])
    rw [spelled, depthAfter, if_neg (by simp [quoted]), run_unquoted noQuote]
    exact ⟨whole_of_apart ⟨comma, semicolon⟩ _, rfl⟩

theorem readValue_clear (clear : field.clear = true) : readValue field.valueText = field.value := by
  cases quoted : field.quoted with
  | true =>
    rw [valueText, if_pos quoted, escapeXfcc_plain ((field.clear_quoted quoted).mp clear),
      readValue_quoted]
  | false =>
    rw [valueText, if_neg (by simp [quoted]), readValue, (field.clear_unquoted quoted).mp clear,
      stripQuotes_plain (field.value_apart quoted).2.2]

/-- More text behind a clear value is read into it. -/
theorem readValue_comma_ne (clear : field.clear = true) (more : List Char) :
    readValue (field.valueText ++ ',' :: more) ≠ field.value := by
  have visible : isWhitespace ',' = false := by decide
  intro read
  cases quoted : field.quoted with
  | true =>
    have spelled : field.valueText ++ ',' :: more =
        '"' :: ((field.value ++ ['"']) ++ ',' :: more) := by
      rw [valueText, if_pos quoted, escapeXfcc_plain ((field.clear_quoted quoted).mp clear)]
      simp
    have atLeast := length_stripQuotes
      ((field.value ++ ['"']) ++ ',' :: more.rdropWhile isWhitespace)
    rw [spelled, readValue_quote, rdropWhile_append_cons visible] at read
    rw [read, length_append, length_append, length_singleton, length_cons] at atLeast
    omega
  | false =>
    have found := comma_mem_readValue field.valueText more
    rw [read] at found
    exact (field.value_apart quoted).1 found

section

variable {field} {depth : Nat} {tail : List Char}
  (next : Behind (fieldEnd.piece (false, field.depthAfter depth) tail))

include next

/-- A value that is not clear is read as something else, whatever comes behind it. -/
theorem readValue_unclear_ne (unclear : field.clear = false) :
    readValue (fieldEnd.piece (false, depth) (field.valueText ++ tail)) ≠ field.value := by
  cases quoted : field.quoted with
  | true =>
    have spelled : field.valueText ++ tail = '"' :: escapeXfcc field.value ++ '"' :: tail := by
      rw [valueText, if_pos quoted]
      simp
    rw [clear, if_pos quoted, all_eq_false] at unclear
    obtain ⟨char, member, special⟩ := unclear
    rw [Bool.not_eq_true, Bool.not_eq_false'] at special
    rw [spelled]
    exact readValue_special_ne member special
  | false =>
    obtain ⟨comma, semicolon, noQuote⟩ := field.value_apart quoted
    have spelled : field.valueText = field.value := if_neg (by simp [quoted])
    rw [depthAfter, if_neg (by simp [quoted])] at next
    rw [spelled, piece_append (whole_of_apart ⟨comma, semicolon⟩ _), run_unquoted noQuote]
    intro read
    rcases next with none | ⟨more, found⟩
    · have plain : '"' ∉ trim field.value := fun member => noQuote (mem_of_mem_trim member)
      rw [none, append_nil, readValue, stripQuotes_plain plain] at read
      exact absurd ((field.clear_unquoted quoted).mpr read) (by simp [unclear])
    · have also := comma_mem_readValue field.value more
      rw [← found, read] at also
      exact comma also

/-- The value is read as it was exactly when it is clear and its field ends behind it. -/
theorem readValue_eq_iff :
    readValue (fieldEnd.piece (false, depth) (field.valueText ++ tail)) = field.value ↔
      field.clear = true ∧ fieldEnd.piece (false, field.depthAfter depth) tail = [] := by
  cases clear : field.clear with
  | false =>
    refine iff_of_false (readValue_unclear_ne next clear) ?_
    rintro ⟨same, -⟩
    cases same
  | true =>
    obtain ⟨undivided, state⟩ := field.value_scanned clear depth
    rw [piece_append undivided, state]
    rcases next with none | ⟨more, found⟩
    · rw [none, append_nil]
      exact iff_of_true (field.readValue_clear clear) ⟨rfl, rfl⟩
    · rw [found]
      refine iff_of_false (field.readValue_comma_ne clear more) ?_
      rintro ⟨-, same⟩
      cases same

end

end VgiRpc.Auth.XfccField

namespace VgiRpc.Auth.Mtls

open Library List Scanner OrderedMap

theorem readFields_eq (hop : List Char) :
    readFields hop = (keyValues.split false [] hop).filterMap fun part => readPart (trim part) := by
  rw [readFields, splitKv, trimmed, filterMap_filter, filterMap_map]
  refine filterMap_congr fun part _ => ?_
  rw [Function.comp_apply]
  cases trim part with
  | nil => rfl
  | cons => rfl

theorem readFields_rdropWhile (hop : List Char) :
    readFields (hop.rdropWhile isWhitespace) = readFields hop := by
  obtain ⟨blanks, whole, blank⟩ := rdropWhile_append isWhitespace hop
  have uncut : ∀ quoted, ∀ char ∈ blanks, keyValues.cuts quoted char = false := by
    intro quoted char member
    have other : char ≠ ';' := by
      rintro rfl
      exact absurd (blank _ member) (by decide)
    simp [keyValues, other]
  obtain ⟨parts, last, short, long⟩ :=
    split_trailing uncut false [] (hop.rdropWhile isWhitespace)
  rw [← whole] at long
  rw [readFields_eq, readFields_eq, short, long, filterMap_append, filterMap_append,
    filterMap_cons, filterMap_cons, trim_append_blanks blank]

/-- The fields that are read of the first hop, from a place inside it. -/
def readFrom (depth : Nat) (text : List Char) : List (String × String) :=
  readFields (topLevel.piece (false, depth) text)

/-- A first field that is read as it was is clear, and ends where it should. -/
theorem clear_of_readFrom {field : XfccField} {depth : Nat} {tail : List Char} {others : List
    (String × String)} (next : Behind (fieldEnd.piece (false, field.depthAfter depth) tail)) (read :
    readFrom depth (field.spelling ++ tail) = field.entry :: others) :
    field.clear = true ∧ fieldEnd.piece (false, field.depthAfter depth) tail = [] := by
  obtain ⟨parts, divided⟩ := keyValues.split_piece false []
    (topLevel.piece (false, depth) (field.spelling ++ tail))
  have first := piece_piece nesting_agrees (false, depth) (field.spelling ++ tail)
  rw [← fieldEnd, field.piece_spelling] at first
  rw [nil_append, first] at divided
  rw [readFrom, readFields_eq, divided, filterMap_cons, field.readPart_key] at read
  have value := String.ofList_injective (Prod.mk.inj (List.cons.inj read).1).2
  exact (XfccField.readValue_eq_iff next).mp value

variable (field : XfccField)

theorem spelling_scanned (clear : field.clear = true) (depth : Nat) :
    topLevel.whole (false, depth) field.spelling = true ∧
      topLevel.run (false, depth) field.spelling = (false, field.depthAfter depth) ∧
      keyValues.whole false field.spelling = true ∧ keyValues.run false field.spelling = false := by
  obtain ⟨key, behindKey⟩ := field.key_scanned depth
  obtain ⟨value, behindValue⟩ := field.value_scanned clear depth
  have spelled : field.spelling = (field.key.toList ++ ['=']) ++ field.valueText := by
    rw [field.spelling_eq, append_cons]
  have undivided : fieldEnd.whole (false, depth) field.spelling = true := by
    rw [spelled, whole_append, behindKey]
    exact ⟨key, value⟩
  have state : topLevel.run (false, depth) field.spelling = (false, field.depthAfter depth) := by
    change fieldEnd.run (false, depth) field.spelling = _
    rw [spelled, run, foldl_append, ← run, ← run, behindKey, behindValue]
  obtain ⟨outside, inside, agrees⟩ := whole_of_also nesting_agrees undivided
  refine ⟨outside, state, inside, ?_⟩
  rw [agrees, state]

theorem readPart_clear (clear : field.clear = true) :
    readPart (trim field.spelling) = some field.entry := by
  rw [field.spelling_eq, field.readPart_key, field.readValue_clear clear]
  rfl

theorem readFrom_semicolon (clear : field.clear = true) (depth : Nat) (rest : List Char) :
    readFrom depth (field.spelling ++ ';' :: rest) =
      field.entry :: readFrom (field.depthAfter depth) rest := by
  obtain ⟨undivided, state, inside, closed⟩ := spelling_scanned field clear depth
  have onward : topLevel.piece (false, field.depthAfter depth) (';' :: rest) =
      ';' :: topLevel.piece (false, field.depthAfter depth) rest := rfl
  have cut : keyValues.cuts false ';' = true := rfl
  have next : keyValues.step false ';' = false := rfl
  rw [readFrom, piece_append undivided, state, onward, readFields_eq,
    split_append inside, closed, split, if_pos cut, next, nil_append,
    filterMap_cons, readPart_clear field clear, readFrom, readFields_eq]

variable {ending : List Char} {depth : Nat}

theorem readFrom_end (field : XfccField) (clear : field.clear = true)
    (ends : topLevel.piece (false, field.depthAfter depth) ending = []) :
    readFrom depth (field.spelling ++ ending) = [field.entry] := by
  obtain ⟨undivided, state, inside, closed⟩ := spelling_scanned field clear depth
  have single := split_append inside [] []
  rw [append_nil, nil_append, split] at single
  rw [readFrom, piece_append undivided, state, ends, append_nil, readFields_eq, single,
    filterMap_cons, readPart_clear field clear]
  rfl

/-! ## A hop and what follows -/

theorem piece_behind (behind : Behind ending) (depth : Nat) :
    Behind (fieldEnd.piece (false, depth) ending) ∧
      (fieldEnd.piece (false, depth) ending = [] ↔ ending = [] ∨ depth = 0) := by
  rcases behind with rfl | ⟨more, rfl⟩
  · exact ⟨.inl rfl, iff_of_true rfl (.inl rfl)⟩
  · by_cases closed : depth = 0
    · subst closed
      exact ⟨.inl rfl, iff_of_true rfl (.inr rfl)⟩
    · have onward : fieldEnd.piece (false, depth) (',' :: more) =
          ',' :: fieldEnd.piece (fieldEnd.step (false, depth) ',') more := by
        rw [piece, if_neg (by simp [fieldEnd_cuts, closed])]
      rw [onward]
      refine ⟨.inr ⟨_, rfl⟩, iff_of_false (by simp) ?_⟩
      rintro (none | zero)
      · cases none
      · exact closed zero

theorem topLevel_behind (behind : Behind ending) (ends : ending = [] ∨ depth = 0) :
    topLevel.piece (false, depth) ending = [] := by
  rcases ends with rfl | rfl
  · rfl
  · rcases behind with rfl | ⟨more, rfl⟩
    · rfl
    · rfl

def openBrackets (depth : Nat) (fields : List XfccField) : Nat :=
  fields.foldl (fun depth field => field.depthAfter depth) depth

/-- The fields of a hop are read exactly when they are all clear and the hop ends where it
should. -/
theorem readFrom_joined {fields : List XfccField} (nonempty : fields ≠ [])
    (behind : Behind ending) (depth : Nat) :
    readFrom depth (joined (fields.map XfccField.spelling) ++ ending) = fields.map XfccField.entry ↔
      (∀ field ∈ fields, field.clear = true) ∧ (ending = [] ∨ openBrackets depth fields = 0) := by
  induction fields generalizing depth with
  | nil => exact absurd rfl nonempty
  | cons field others ih =>
    cases others with
    | nil =>
      obtain ⟨next, stops⟩ := piece_behind behind (field.depthAfter depth)
      have single : joined ([field].map XfccField.spelling) = field.spelling := by
        simp [joined, intercalate]
      rw [single, forall_mem_singleton]
      constructor
      · intro read
        obtain ⟨clear, none⟩ := clear_of_readFrom next read
        exact ⟨clear, stops.mp none⟩
      · rintro ⟨clear, ends⟩
        exact readFrom_end field clear (topLevel_behind behind ends)
    | cons second rest =>
      have next : fieldEnd.piece (false, field.depthAfter depth)
          (';' :: (joined ((second :: rest).map XfccField.spelling) ++ ending)) = [] := rfl
      have layout : joined ((field :: second :: rest).map XfccField.spelling) ++ ending =
          field.spelling ++ ';' :: (joined ((second :: rest).map XfccField.spelling) ++ ending) := by
        simp only [joined, map_cons, intercalate_cons_cons]
        simp
      have onward := ih (cons_ne_nil _ _) (field.depthAfter depth)
      rw [layout, forall_mem_cons, and_assoc]
      constructor
      · intro read
        obtain ⟨clear, -⟩ := clear_of_readFrom (.inl next) read
        rw [readFrom_semicolon field clear] at read
        exact ⟨clear, onward.mp (List.cons.inj read).2⟩
      · rintro ⟨clear, later⟩
        rw [readFrom_semicolon field clear, onward.mpr later]
        rfl

/-! ## Headers -/

/-- The certificate of a hop has at least one field. -/
structure XfccHop where
  fields : List XfccField
  nonempty : fields ≠ []

def XfccHop.text (hop : XfccHop) : List Char := joined (hop.fields.map XfccField.spelling)

variable (first : XfccHop) (rest : List XfccHop)

def headerOf : String :=
  String.ofList ([','].intercalate (first.text :: rest.map XfccHop.text))

/-- The fields that are read are those of the first hop, and the element has under each key
exactly the values of the key. -/
def ReadsBack : Prop :=
  (firstHop (headerOf first rest)).map readFields = some (first.fields.map XfccField.entry) ∧
    ∃ element, parseXfcc (headerOf first rest) = some element ∧
      ∀ key, (element.fields.get? key).toList =
        (first.fields.filter fun field => field.lowerKey = key).map fun field =>
          String.ofList field.value

/-- The keys of the hop are distinct, its values clear, and its brackets closed unless it is the
last hop. -/
def Sound : Prop :=
  (first.fields.map XfccField.lowerKey).Nodup ∧ (∀ field ∈ first.fields, field.clear = true) ∧
    (rest = [] ∨ openBrackets 0 first.fields = 0)

theorem headerOf_layout :
    ∃ ending, (headerOf first rest).toList = first.text ++ ending ∧ Behind ending ∧
      (ending = [] ↔ rest = []) := by
  rw [headerOf, String.toList_ofList]
  cases rest with
  | nil => exact ⟨[], by simp [intercalate], .inl rfl, iff_of_true rfl rfl⟩
  | cons second others =>
    refine ⟨',' :: [','].intercalate (second.text :: others.map XfccHop.text), ?_, .inr ⟨_, rfl⟩,
      iff_of_false (by simp) (by simp)⟩
    rw [map_cons, intercalate_cons_cons]
    simp

/-- The first hop is found, without the blanks at its end. -/
theorem firstHop_headerOf : firstHop (headerOf first rest) =
      some ((topLevel.piece (false, 0) (headerOf first rest).toList).rdropWhile isWhitespace) := by
  obtain ⟨ending, layout, -, -⟩ := headerOf_layout first rest
  obtain ⟨field, others, fields⟩ := exists_cons_of_ne_nil first.nonempty
  obtain ⟨noComma, -, visible, nonempty⟩ := field.key_facts
  obtain ⟨char, more, key⟩ := exists_cons_of_ne_nil nonempty
  have shown : isWhitespace char = false := visible char (by rw [key]; exact mem_cons_self ..)
  obtain ⟨tail, text⟩ : ∃ tail, (headerOf first rest).toList = char :: tail := by
    rw [layout, XfccHop.text, fields, joined, map_cons]
    cases others.map XfccField.spelling with
    | nil =>
      rw [intercalate_singleton, field.spelling_eq, key]
      exact ⟨_, rfl⟩
    | cons second later =>
      rw [intercalate_cons_cons, field.spelling_eq, key]
      exact ⟨_, rfl⟩
  have comma : char ≠ ',' := by
    rintro rfl
    exact noComma (by rw [key]; exact mem_cons_self ..)
  obtain ⟨pieces, divided⟩ := topLevel.split_piece (false, 0) [] (headerOf first rest).toList
  have front : topLevel.piece (false, 0) (char :: tail) =
      char :: topLevel.piece (topLevel.step (false, 0) char) tail := by
    rw [piece, if_neg (by simp [topLevel, comma])]
  rw [firstHop, splitTopLevel, divided, nil_append, trimmed, map_cons, text, front, trim,
    dropWhile_cons_of_neg (by simp [shown])]
  have kept := rdropWhile_append_cons shown [] (topLevel.piece (topLevel.step (false, 0) char) tail)
  rw [nil_append, nil_append] at kept
  rw [kept, filter_cons_of_pos (by simp), head?_cons]

theorem readFields_firstHop : (firstHop (headerOf first rest)).map readFields =
      some (readFrom 0 (headerOf first rest).toList) := by
  rw [firstHop_headerOf, Option.map_some, readFields_rdropWhile, readFrom]

/-- An element that is filled with the fields of a hop has all values of each key exactly when no
key comes twice. -/
theorem get?_entries_iff (fields : List XfccField) :
    (∀ key, ((OrderedMap.ofEntries (fields.map XfccField.entry)).get? key).toList =
        (fields.filter fun field => field.lowerKey = key).map fun field =>
          String.ofList field.value) ↔
      (fields.map XfccField.lowerKey).Nodup := by
  have values : ∀ key, (((fields.map XfccField.entry).filter fun entry => entry.1 = key).map Prod.snd) =
      (fields.filter fun field => field.lowerKey = key).map fun field =>
        String.ofList field.value := by
    intro key
    rw [filter_map, map_map]
    rfl
  have single : ∀ texts : List String, texts.getLast?.toList = texts ↔ texts.length ≤ 1 := by
    intro texts
    match texts with
    | [] => simp
    | [_] => simp
    | _ :: _ :: _ =>
      refine iff_of_false (fun same => ?_) (by simp)
      have lengths := congrArg List.length same
      rw [getLast?_cons] at lengths
      simp at lengths
  have counted : ∀ key, (fields.map XfccField.lowerKey).count key =
      ((fields.filter fun field => field.lowerKey = key).map fun field =>
        String.ofList field.value).length := by
    intro key
    rw [length_map, count_eq_countP, countP_map, countP_eq_length_filter]
    rfl
  rw [nodup_iff_count_le_one]
  refine forall_congr' fun key => ?_
  rw [get?_ofEntries, values, single, counted]

theorem ofEntries_nonempty {entries : List (String × String)} (nonempty : entries ≠ []) :
    (OrderedMap.ofEntries entries).isEmpty = false := by
  obtain ⟨entry, others, rfl⟩ := exists_cons_of_ne_nil nonempty
  have found : ((ofEntries (entry :: others)).get? entry.1).isSome = true := by
    rw [get?_ofEntries, filter_cons_of_pos (by simp), map_cons, getLast?_cons]
    rfl
  have member := (get?_isSome_iff _ _).mp found
  rw [OrderedMap.isEmpty, isEmpty_eq_false_iff]
  intro none
  rw [OrderedMap.keys, none] at member
  cases member

theorem parseXfcc_headerOf (nonempty : readFrom 0 (headerOf first rest).toList ≠ []) :
    parseXfcc (headerOf first rest) =
      some ⟨OrderedMap.ofEntries (readFrom 0 (headerOf first rest).toList)⟩ := by
  have read := readFields_firstHop first rest
  rw [firstHop_headerOf, Option.map_some, Option.some_inj] at read
  rw [parseXfcc, firstHop_headerOf, Option.bind_some, parseKvList, read,
    ofEntries_nonempty nonempty, if_neg Bool.false_ne_true]

/-- A header is read as it was written exactly when its first hop is sound. -/
theorem reads_back_iff (first : XfccHop) (rest : List XfccHop) :
    ReadsBack first rest ↔ Sound first rest := by
  obtain ⟨ending, layout, behind, last⟩ := headerOf_layout first rest
  have fields := readFrom_joined first.nonempty behind 0
  rw [← XfccHop.text, ← layout, last] at fields
  unfold ReadsBack Sound
  rw [readFields_firstHop, Option.some_inj, ← fields, ← get?_entries_iff, and_comm]
  refine and_congr_left fun read => ?_
  have nonempty : readFrom 0 (headerOf first rest).toList ≠ [] := by
    rw [read]
    simp [first.nonempty]
  rw [parseXfcc_headerOf first rest nonempty, read]
  constructor
  · rintro ⟨element, ⟨⟩, values⟩
    exact values
  · exact fun values => ⟨_, rfl, values⟩

namespace Sample

theorem hash_text : ∀ char ∈ "bad".toList, 0x20 ≤ char.toNat ∧ char.toNat < 0x7f :=
  forall_mem_of_all (by decide)

theorem hash_plain : false = false → ∀ char ∈ "bad".toList, char ∉ [',', ';', '=', '"', '\\'] :=
  fun _ => forall_mem_of_all (by decide)

theorem hash_known : "Hash" ∈ envoyKeys := by decide

def hash : XfccField := ⟨"Hash", "bad".toList, false, hash_known, hash_text, hash_plain⟩

theorem subject_text : ∀ char ∈ "a\";Hash=deadbeef;x=\"".toList,
    0x20 ≤ char.toNat ∧ char.toNat < 0x7f :=
  forall_mem_of_all (by decide +kernel)

theorem subject_plain : true = false → ∀ char ∈ "a\";Hash=deadbeef;x=\"".toList,
    char ∉ [',', ';', '=', '"', '\\'] := by
  rintro ⟨⟩

theorem subject_known : "Subject" ∈ envoyKeys := by decide

def subject : XfccField :=
  ⟨"Subject", "a\";Hash=deadbeef;x=\"".toList, true, subject_known, subject_text, subject_plain⟩

theorem some_field : [hash, subject] ≠ [] := cons_ne_nil _ _

def forged : XfccHop := ⟨[hash, subject], some_field⟩

def request : AuthRequest := ⟨"echo", [(headerName, headerOf forged [])], none⟩

end Sample

/-- The subject of a certificate brings the fingerprint of another one with it, which is
accepted. -/
theorem subject_forges_hash :
    headerOf Sample.forged [] = "Hash=bad;Subject=\"a\\\";Hash=deadbeef;x=\\\"\"" ∧
      (parseXfcc (headerOf Sample.forged [])).bind XfccElement.hash = some "deadbeef" ∧
      (∃ claims, (mtlsAuthenticateFingerprint ["deadbeef"] Sample.request).toOption =
        some ⟨true, "mtls", "a\\", claims⟩) ∧
      ¬ ReadsBack Sample.forged [] := by
  have other : (parseXfcc (headerOf Sample.forged [])).bind XfccElement.hash = some "deadbeef" := by
    decide +kernel
  refine ⟨by decide +kernel, other, ⟨_, rfl⟩, ?_⟩
  rintro ⟨-, element, parsed, values⟩
  rw [parsed, Option.bind_some, XfccElement.hash] at other
  have own : (element.fields.get? "hash").toList = ["bad"] :=
    (values "hash").trans (by decide +kernel)
  rw [other] at own
  exact absurd own (by decide)

end VgiRpc.Auth.Mtls
