import VgiRpc.Auth.Xfcc

/-!
# Headers as a proxy writes them

A proxy writes one element: its fields in order, a value between quotes when it holds a
character that divides, with its own quotes and backslashes escaped.  The reader divides
such a header at its commas first, which finds a single element and takes the escapes out
of it; the quotes and backslashes of a value stand in that element as if they were the
header's own when it is divided at its semicolons.
-/

namespace VgiRpc.Auth

open Library List Option
open Library.ByteStream (Bytes)

/-! ## Writing -/

def envoyKeys : List String := ["By", "Hash", "Cert", "Chain", "Subject", "URI", "DNS", "Issuer"]

/-- A field of a client certificate.  A value stands without quotes only when it holds none
of the characters with a meaning. -/
structure XfccField where
  key : String
  value : List Char
  quoted : Bool
  known : key ∈ envoyKeys
  text : ∀ char ∈ value, 0x20 ≤ char.toNat ∧ char.toNat < 0x7f
  plain : quoted = false → ∀ char ∈ value, char ∉ [',', ';', '=', '"', '\\']

def escapeXfcc (value : List Char) : List Char :=
  value.flatMap fun char => if char = '"' || char = '\\' then ['\\', char] else [char]

namespace XfccField

variable (field : XfccField)

def spelling : List Char :=
  field.key.toList ++ '=' ::
    (if field.quoted then '"' :: escapeXfcc field.value ++ ['"'] else field.value)

def bare : List Char :=
  field.key.toList ++ '=' :: (if field.quoted then '"' :: field.value ++ ['"'] else field.value)

def lowerKey : String := String.ofList (field.key.toList.map Char.toLower)

/-- The value a reader should report; there is none for a broken percent sequence. -/
def reported : Option String := fieldValue field.lowerKey field.value

end XfccField

def joined (texts : List (List Char)) : List Char := [';'].intercalate texts

variable (fields : List XfccField)

def xfccHeader : String :=
  String.ofList (joined (fields.map XfccField.spelling))

variable (parsed : XfccFields)

def valuesAt (key : String) : List String := (parsed.get? key).getD []

/-- Under every key stand the values of the fields with that key, in order. -/
def GivesBack : Prop :=
  ∀ key, (valuesAt parsed key).map some =
    (fields.filter fun field => field.lowerKey == key).map XfccField.reported

/-- Whether a text leaves a reader inside quotes, as it found it, without a backslash
inside quotes and without a semicolon outside them. -/
def settled : Bool → List Char → Bool
  | quoted, [] => quoted
  | quoted, char :: rest =>
    if char = '"' then settled (!quoted) rest
    else if quoted && char = '\\' then false
    else if !quoted && char = ';' then false
    else settled quoted rest

/-- A value between quotes is settled, and one without has no blank at either end. -/
def XfccField.tidy (field : XfccField) : Bool :=
  if field.quoted then settled true field.value else trim field.value == field.value

variable {field : XfccField} {rest : List Char}

section

variable {delimiter : Char}

theorem splitXfccFrom_plain {current text rest : List Char}
    (plain : ∀ char ∈ text, char ≠ '"' ∧ char ≠ delimiter) :
    splitXfccFrom delimiter false false current (text ++ rest) =
      splitXfccFrom delimiter false false (current ++ text) rest := by
  induction text generalizing current with
  | nil => simp
  | cons char others ih =>
    obtain ⟨notQuote, notDelimiter⟩ := plain char (by simp)
    rw [cons_append, splitXfccFrom, if_neg (by simp), if_neg (by simpa using notQuote),
      if_neg (by simpa using notDelimiter), ih (forall_mem_cons.mp plain).2]
    simp

theorem splitXfccFrom_escape (value current rest : List Char) :
    splitXfccFrom delimiter true false current (escapeXfcc value ++ rest) =
      splitXfccFrom delimiter true false (current ++ value) rest := by
  induction value generalizing current with
  | nil => simp [escapeXfcc]
  | cons char others ih =>
    have unfolded : escapeXfcc (char :: others) =
        (if char = '"' || char = '\\' then ['\\', char] else [char]) ++ escapeXfcc others := rfl
    rw [unfolded]
    by_cases special : char = '"' || char = '\\'
    · rw [if_pos special]
      simp only [cons_append, nil_append]
      rw [splitXfccFrom, if_pos (by simp), splitXfccFrom, if_pos special, ih]
      simp
    · have notQuote : char ≠ '"' := by rintro rfl; simp at special
      have notBackslash : char ≠ '\\' := by rintro rfl; simp at special
      rw [if_neg special]
      simp only [cons_append, nil_append]
      rw [splitXfccFrom, if_neg (by simpa using notBackslash), if_neg notQuote, if_neg (by simp),
        ih]
      simp

variable {quoted : Bool}

/-- The first part goes on with the current one; from inside quotes it has to come to a quote. -/
theorem splitXfccFrom_extends {escaped : Bool} {current text : List Char} {parts : List (List Char)}
    (divided : splitXfccFrom delimiter quoted escaped current text = some parts) :
    ∃ more others, parts = (current ++ more) :: others ∧ (quoted = true → '"' ∈ more) := by
  induction text generalizing quoted escaped current with
  | nil =>
    rw [splitXfccFrom] at divided
    split_ifs at divided
    cases divided
    exact ⟨[], [], by simp, by simp_all⟩
  | cons char rest ih =>
    have onward {next escaped : Bool} (kept : quoted = true → char = '"' ∨ next = true)
        (later : splitXfccFrom delimiter next escaped (current ++ [char]) rest = some parts) :
        ∃ more others, parts = (current ++ more) :: others ∧ (quoted = true → '"' ∈ more) := by
      obtain ⟨more, others, rfl, quote⟩ := ih later
      refine ⟨char :: more, others, by simp, fun inside => ?_⟩
      rcases kept inside with rfl | still
      · exact mem_cons_self
      · exact mem_cons_of_mem _ (quote still)
    cases escaped with
    | true =>
      rw [splitXfccFrom] at divided
      split_ifs at divided
      exact onward .inr divided
    | false =>
      rw [splitXfccFrom] at divided
      split at divided
      · exact ih divided
      split at divided
      · exact onward (fun _ => .inl ‹_›) divided
      split at divided
      · obtain ⟨others, -, rfl⟩ := map_eq_some_iff.mp divided
        exact ⟨[], others, by simp, by simp_all⟩
      · exact onward .inr divided

theorem splitXfccFrom_settled {value current rest : List Char} (calm : settled quoted value = true) :
    splitXfccFrom ';' quoted false current (value ++ rest) =
      splitXfccFrom ';' true false (current ++ value) rest := by
  induction value generalizing quoted current with
  | nil =>
    rw [settled] at calm
    subst calm
    simp
  | cons char others ih =>
    rw [settled] at calm
    by_cases quote : char = '"'
    · rw [if_pos quote] at calm
      rw [cons_append, splitXfccFrom, if_neg (by simp [quote]), if_pos quote, ih calm]
      simp
    · rw [if_neg quote] at calm
      split_ifs at calm with notEscape notDivider
      rw [cons_append, splitXfccFrom, if_neg notEscape, if_neg quote,
        if_neg (by simpa [and_comm] using notDivider), ih calm]
      simp

end

/-! ## Fields -/

variable {text : List Char}

theorem forall_mem_of_all {p : Char → Prop} [DecidablePred p]
    (holds : (text.all fun char => decide (p char)) = true) : ∀ char ∈ text, p char :=
  fun char member => of_decide_eq_true (all_eq_true.mp holds char member)

variable {key : String} {fields : List XfccField} {char : Char} {pairs : List (List Char)}
  {parts : List (List Char)} {bytes : Bytes}

/-- What holds of the characters of a key, and of the key as a whole. -/
theorem envoyKey_facts (known : key ∈ envoyKeys) :
    (∀ char ∈ key.toList, char ∉ [',', ';', '=', '"', '\\']) ∧ trim key.toList = key.toList ∧
      validXfccKey key.toList = true ∧
      allowedKeys.contains (String.ofList (key.toList.map Char.toLower)) = true := by
  have facts : ∀ key ∈ envoyKeys,
      (key.toList.all fun char => decide (char ∉ [',', ';', '=', '"', '\\'])) = true ∧
      trim key.toList = key.toList ∧ validXfccKey key.toList = true ∧
      allowedKeys.contains (String.ofList (key.toList.map Char.toLower)) = true := by
    decide +kernel
  obtain ⟨apart, rest⟩ := facts key known
  exact ⟨forall_mem_of_all apart, rest⟩

namespace XfccField

variable (field : XfccField) {delimiter : Char}

theorem ne_of_plain (divides : delimiter ∈ [',', ';'])
    (apart : char ∉ [',', ';', '=', '"', '\\']) : char ≠ '"' ∧ char ≠ delimiter := by
  simp only [mem_cons, not_mem_nil, or_false, not_or] at apart divides
  refine ⟨apart.2.2.2.1, ?_⟩
  rcases divides with rfl | rfl
  · exact apart.1
  · exact apart.2.1

theorem key_plain (divides : delimiter ∈ [',', ';']) :
    ∀ char ∈ field.key.toList ++ ['='], char ≠ '"' ∧ char ≠ delimiter := by
  intro char member
  rcases mem_append.mp member with inKey | last
  · exact ne_of_plain divides ((envoyKey_facts field.known).1 char inKey)
  · rw [mem_singleton.mp last]
    rcases mem_pair.mp divides with rfl | rfl <;> decide

theorem value_plain (unquoted : field.quoted = false) (divides : delimiter ∈ [',', ';']) :
    ∀ char ∈ field.value, char ≠ '"' ∧ char ≠ delimiter :=
  fun char member => ne_of_plain divides (field.plain unquoted char member)

/-- A field is taken over when what stands between its quotes is read as its value. -/
theorem splitXfccFrom_written (divides : delimiter ∈ [',', ';']) {inside : List Char} (between :
    field.quoted = true → ∀ current rest, splitXfccFrom delimiter true false current (inside ++
    rest) = splitXfccFrom delimiter true false (current ++ field.value) rest) (current rest : List
    Char) :
    splitXfccFrom delimiter false false current (field.key.toList ++ '=' ::
        (if field.quoted then '"' :: inside ++ ['"'] else field.value) ++ rest) =
      splitXfccFrom delimiter false false (current ++ field.bare) rest := by
  unfold bare
  rw [append_cons, append_assoc, splitXfccFrom_plain (field.key_plain divides)]
  cases quoted : field.quoted with
  | true =>
    simp only [if_true, cons_append, append_assoc, nil_append]
    rw [splitXfccFrom, if_neg (by simp), if_pos rfl, Bool.not_false, between quoted,
      splitXfccFrom, if_neg (by simp), if_pos rfl, Bool.not_true]
    simp
  | false =>
    simp only [Bool.false_eq_true, if_false]
    rw [splitXfccFrom_plain (field.value_plain quoted divides)]
    simp

/-- Dividing at commas takes a field over without its escapes. -/
theorem splitXfccFrom_spelling (current rest : List Char) :
    splitXfccFrom ',' false false current (field.spelling ++ rest) =
      splitXfccFrom ',' false false (current ++ field.bare) rest :=
  field.splitXfccFrom_written (by simp) (fun _ => splitXfccFrom_escape _) current rest

/-- Dividing at semicolons takes a field with a settled value over as it is. -/
theorem splitXfccFrom_bare (calm : field.quoted = true → settled true field.value = true)
    (current rest : List Char) :
    splitXfccFrom ';' false false current (field.bare ++ rest) =
      splitXfccFrom ';' false false (current ++ field.bare) rest :=
  field.splitXfccFrom_written (by simp) (fun quoted _ _ => splitXfccFrom_settled (calm quoted))
    current rest

end XfccField

theorem splitXfcc_header (fields : List XfccField) :
    splitXfcc ',' (joined (fields.map XfccField.spelling)) =
      some [joined (fields.map XfccField.bare)] := by
  suffices all : ∀ current, splitXfccFrom ',' false false current
      (joined (fields.map XfccField.spelling)) =
        some [current ++ joined (fields.map XfccField.bare)] from all []
  unfold joined
  induction fields with
  | nil => intro current; simp [splitXfccFrom]
  | cons field others ih =>
    intro current
    cases others with
    | nil =>
      have step := field.splitXfccFrom_spelling current []
      rw [append_nil] at step
      simp [step, splitXfccFrom]
    | cons second rest =>
      simp only [map_cons, intercalate_cons_cons] at ih ⊢
      rw [append_assoc, field.splitXfccFrom_spelling, cons_append, nil_append,
        splitXfccFrom, if_neg (by simp), if_neg (by decide), if_neg (by decide), ih]
      simp

/-- The second division finds the fields again when their values are settled. -/
theorem splitXfcc_bare (some_field : fields ≠ [])
    (calm : ∀ field ∈ fields, field.quoted = true → settled true field.value = true) :
    splitXfcc ';' (joined (fields.map XfccField.bare)) = some (fields.map XfccField.bare) := by
  unfold splitXfcc joined
  induction fields with
  | nil => exact absurd rfl some_field
  | cons field others ih =>
    have first := calm field (by simp)
    cases others with
    | nil =>
      have step := field.splitXfccFrom_bare first [] []
      rw [append_nil] at step
      simp [step, splitXfccFrom]
    | cons second rest =>
      have next := ih (by simp) (forall_mem_cons.mp calm).2
      simp only [map_cons, intercalate_cons_cons] at next ⊢
      rw [append_assoc, field.splitXfccFrom_bare first, cons_append, nil_append, splitXfccFrom,
        if_neg (by simp), if_neg (by decide), if_pos (by simp), nil_append, next]
      simp

/-! ## Reading a field -/

theorem rdropWhile_append (test : Char → Bool) (text : List Char) :
    ∃ tail, text = text.rdropWhile test ++ tail ∧ ∀ char ∈ tail, test char = true := by
  refine ⟨(text.reverse.takeWhile test).reverse, ?_, ?_⟩
  · unfold rdropWhile
    rw [← reverse_append, takeWhile_append_dropWhile, reverse_reverse]
  · intro char member
    exact mem_takeWhile_imp (mem_reverse.mp member)

theorem mem_of_mem_trim (member : char ∈ trim text) : char ∈ text := by
  unfold trim at member
  exact (dropWhile_sublist _).subset ((List.rdropWhile_prefix _ _).subset member)

theorem trim_quoted (value : List Char) : trim ('"' :: value ++ ['"']) = '"' :: value ++ ['"'] := by
  unfold trim
  rw [cons_append, dropWhile_cons_of_neg (by decide), ← cons_append,
    rdropWhile_concat_neg _ _ _ (by decide)]

theorem xfccValue_quoted (value : List Char) : xfccValue ('"' :: value ++ ['"']) = some value := by
  simp [xfccValue]

variable {value : List Char}

/-- A value that is read from a text that begins with a quote stands between that quote and
the last one, which only blanks follow. -/
theorem xfccValue_trim (read : xfccValue (trim ('"' :: text)) = some value) :
    ∃ blanks, text = value ++ '"' :: blanks ∧ ∀ char ∈ blanks, isWhitespace char = true := by
  have start : trim ('"' :: text) = ('"' :: text).rdropWhile isWhitespace := by
    unfold trim
    rw [dropWhile_cons_of_neg (by decide)]
  obtain ⟨blanks, whole, white⟩ := rdropWhile_append isWhitespace ('"' :: text)
  rw [start] at read
  generalize ('"' :: text).rdropWhile isWhitespace = trimmed at read whole
  cases trimmed with
  | nil => simp [xfccValue] at read
  | cons head rest =>
    simp only [cons_append, List.cons.injEq] at whole
    obtain ⟨rfl, rfl⟩ := whole
    simp only [xfccValue, head?_cons, decide_true, Bool.true_or, if_true] at read
    split_ifs at read with last
    cases read
    refine ⟨blanks, ?_, white⟩
    have rebuilt := dropLast_append_getLast? '"' last
    rw [← rebuilt]
    simp

theorem XfccField.parsePair_text (field : XfccField) (rest : List Char) :
    parsePair (field.key.toList ++ '=' :: rest) = (xfccValue (trim rest)).bind fun value =>
        (fieldValue field.lowerKey value).map fun value => (field.lowerKey, value) := by
  obtain ⟨apart, trimmed, valid, allowed⟩ := envoyKey_facts field.known
  have noEquals : '=' ∉ field.key.toList := fun member => apart _ member (by simp)
  unfold parsePair
  rw [splitOnce_key noEquals]
  simp only [bind, bind_some, trimmed, valid, allowed, Bool.not_true, Bool.or_self,
    Bool.false_eq_true, if_false]
  refine congrArg (Option.bind _) (funext fun value => ?_)
  rw [map_eq_bind]
  rfl

variable {pair : String × String}

/-- A value without quotes is read without the blanks around it. -/
theorem XfccField.parsePair_unquoted (field : XfccField) (unquoted : field.quoted = false)
    (read : parsePair field.bare = some pair) :
    pair.1 = field.lowerKey ∧ fieldValue field.lowerKey (trim field.value) = some pair.2 := by
  rw [bare, if_neg (by simp [unquoted]), field.parsePair_text] at read
  obtain ⟨value, found, named⟩ := bind_eq_some_iff.mp read
  obtain ⟨text, reported, rfl⟩ := map_eq_some_iff.mp named
  refine ⟨rfl, ?_⟩
  have noQuote : ∀ char ∈ trim field.value, char ≠ '"' := fun char member =>
    (field.value_plain unquoted (show ',' ∈ [',', ';'] by simp) char (mem_of_mem_trim member)).1
  unfold xfccValue at found
  rw [if_neg] at found
  · split_ifs at found
    cases found
    exact reported
  · simp only [Bool.or_eq_true, decide_eq_true_eq, not_or]
    exact ⟨fun first => noQuote _ (mem_of_head? first) rfl,
      fun last => noQuote _ (mem_of_getLast? last) rfl⟩

theorem XfccField.parsePair_bare (field : XfccField) (tidy : field.tidy = true)
    (read : parsePair field.bare = some pair) :
    field.reported = some pair.2 ∧ pair.1 = field.lowerKey := by
  cases quoted : field.quoted with
  | true =>
    rw [bare, if_pos quoted, field.parsePair_text, trim_quoted, xfccValue_quoted, bind_some] at read
    obtain ⟨text, reported, rfl⟩ := map_eq_some_iff.mp read
    exact ⟨reported, rfl⟩
  | false =>
    obtain ⟨named, reported⟩ := field.parsePair_unquoted quoted read
    rw [XfccField.tidy, if_neg (by simp [quoted]), beq_iff_eq] at tidy
    rw [tidy] at reported
    exact ⟨reported, named⟩

/-! ## Reading all fields -/

theorem valuesAt_addField {fields next : XfccFields} {field : String × String}
    (added : addField fields field = some next) (key : String) :
    valuesAt next key = valuesAt fields key ++ (if key = field.1 then [field.2] else []) := by
  unfold addField at added
  split_ifs at added
  cases added
  unfold valuesAt
  rw [OrderedMap.get?_insert]
  by_cases same : key = field.1
  · rw [if_pos same, if_pos same, same]
    rfl
  · rw [if_neg same, if_neg same, append_nil]

variable {parsed : XfccFields}

theorem parsePairs_cons {pair : List Char} {rest : List (List Char)} {fields : XfccFields}
    (read : parsePairs (pair :: rest) fields = some parsed) :
    ∃ field next, parsePair pair = some field ∧ addField fields field = some next ∧
      parsePairs rest next = some parsed := by
  rw [parsePairs] at read
  obtain ⟨field, first, more⟩ := bind_eq_some_iff.mp read
  obtain ⟨next, added, others⟩ := bind_eq_some_iff.mp more
  exact ⟨field, next, first, added, others⟩

theorem parsePairs_extends {fields : XfccFields} (read : parsePairs pairs fields = some parsed)
    (key : String) : valuesAt fields key <+: valuesAt parsed key := by
  induction pairs generalizing fields with
  | nil =>
    cases read
    exact prefix_refl _
  | cons pair rest ih =>
    obtain ⟨field, next, -, added, others⟩ := parsePairs_cons read
    refine List.IsPrefix.trans ?_ (ih others)
    rw [valuesAt_addField added]
    exact prefix_append _ _

variable {start next : XfccFields} {others : List XfccField}

theorem valuesAt_reported {text : String} (added : addField start (field.lowerKey, text) = some next)
    (reported : field.reported = some text) (key : String) :
    (valuesAt next key).map some ++
        (others.filter fun field => field.lowerKey == key).map XfccField.reported =
      (valuesAt start key).map some ++
        ((field :: others).filter fun field => field.lowerKey == key).map XfccField.reported := by
  rw [valuesAt_addField added]
  split_ifs with same
  · rw [filter_cons_of_pos (by simp [same]), map_cons, reported]
    simp
  · rw [filter_cons_of_neg (by simpa using Ne.symm same)]
    simp

/-- The fields that are still to be read come behind those that have been. -/
theorem parsePairs_bare (tidy : ∀ field ∈ fields, field.tidy = true)
    (read : parsePairs (fields.map XfccField.bare) start = some parsed) (key : String) :
    (valuesAt parsed key).map some = (valuesAt start key).map some ++
      (fields.filter fun field => field.lowerKey == key).map XfccField.reported := by
  induction fields generalizing start with
  | nil =>
    cases read
    simp
  | cons field rest ih =>
    obtain ⟨⟨_, text⟩, next, first, added, others⟩ := parsePairs_cons read
    obtain ⟨reported, rfl⟩ := field.parsePair_bare (tidy field (by simp)) first
    rw [ih (forall_mem_cons.mp tidy).2 others, valuesAt_reported added reported]

/-! ## Values that are not settled -/

/-- A text with some backslashes of another left out. -/
inductive Thins : List Char → List Char → Prop where
  | nil : Thins [] []
  | keep {thin full : List Char} (char : Char) : Thins thin full → Thins (char :: thin) (char :: full)
  | drop {thin full : List Char} : Thins thin full → Thins thin ('\\' :: full)

variable {thin full : List Char}

theorem Thins.length_le (thins : Thins thin full) : thin.length ≤ full.length := by
  induction thins with
  | nil => exact le_refl _
  | keep char _ ih => simpa using ih
  | drop _ ih => exact ih.trans (by simp)

variable {escaped : Bool} {current : List Char}

/-- What can come of the rest of a value and the quote behind it: the part ends inside the
value, it goes on behind the quote, or it ends there. -/
inductive Divided (quoted escaped : Bool) (value tail : List Char) (parts : List (List Char)) :
    List Char → Prop where
  | cut {before after read : List Char} : value = before ++ ';' :: after → Thins read before →
      Divided quoted escaped value tail parts read
  | merged {thin more : List Char} : Thins thin value → '"' ∈ more →
      Divided quoted escaped value tail parts (thin ++ '"' :: more)
  | whole {thin : List Char} : Thins thin value →
      (escaped = false → thin.length = value.length → settled quoted value = true) →
      (tail = [] ∧ parts = [] ∨ ∃ rest, tail = ';' :: rest ∧ splitXfcc ';' rest = some parts) →
      Divided quoted escaped value tail parts (thin ++ ['"'])

variable {quoted : Bool} {tail : List Char}

theorem Divided.keep {after : Bool} {read : List Char}
    (divided : Divided after false value tail parts read)
    (step : escaped = false → settled after value = true → settled quoted (char :: value) = true) :
    Divided quoted escaped (char :: value) tail parts (char :: read) := by
  cases divided with
  | cut split thins => exact .cut (by rw [split, cons_append]) (thins.keep char)
  | merged thins quote =>
    rw [← cons_append]
    exact .merged (thins.keep char) quote
  | whole thins calm rest =>
    rw [← cons_append]
    refine .whole (thins.keep char) (fun plain lengths => ?_) rest
    exact step plain (calm rfl (by simpa using lengths))

/-- What stands behind a field: nothing, or a semicolon and what is divided next. -/
def Onward (tail : List Char) (parts : List (List Char)) : Prop :=
  tail = [] ∧ parts = [] ∨ ∃ rest, tail = ';' :: rest ∧ splitXfcc ';' rest = some parts

theorem splitXfccFrom_onward (next : tail = [] ∨ ∃ rest, tail = ';' :: rest)
    (divided : splitXfccFrom ';' false false current tail = some pairs) :
    ∃ parts, pairs = current :: parts ∧ Onward tail parts := by
  rcases next with rfl | ⟨rest, rfl⟩
  · cases divided
    exact ⟨[], rfl, .inl ⟨rfl, rfl⟩⟩
  · rw [splitXfccFrom, if_neg (by simp), if_neg (by decide), if_pos (by simp),
      map_eq_some_iff] at divided
    obtain ⟨parts, found, rfl⟩ := divided
    exact ⟨parts, rfl, .inr ⟨rest, rfl, found⟩⟩

theorem splitXfccFrom_divided {part : List Char} (inside : escaped = true → quoted = true) (next :
    tail = [] ∨ ∃ rest, tail = ';' :: rest) (divided : splitXfccFrom ';' quoted escaped current
    (value ++ '"' :: tail) = some (part :: parts)) :
    ∃ read, part = current ++ read ∧ Divided quoted escaped value tail parts read := by
  induction value generalizing quoted escaped current with
  | nil =>
    rw [nil_append] at divided
    have merged (onward : splitXfccFrom ';' true false (current ++ ['"']) tail =
        some (part :: parts)) :
        ∃ read, part = current ++ read ∧ Divided quoted escaped [] tail parts read := by
      obtain ⟨more, others, same, quote⟩ := splitXfccFrom_extends onward
      cases same
      exact ⟨'"' :: more, by simp, .merged .nil (quote rfl)⟩
    cases escaped with
    | true =>
      rw [inside rfl, splitXfccFrom, if_pos (by simp)] at divided
      exact merged divided
    | false =>
      rw [splitXfccFrom, if_neg (by simp), if_pos rfl] at divided
      cases quoted with
      | false =>
        exact merged divided
      | true =>
        obtain ⟨others, same, onward⟩ := splitXfccFrom_onward next divided
        cases same
        exact ⟨_, rfl, .whole .nil (fun _ _ => rfl) onward⟩
  | cons char rest ih =>
    rw [cons_append] at divided
    cases escaped with
    | true =>
      rw [splitXfccFrom] at divided
      split_ifs at divided
      obtain ⟨read, rfl, result⟩ := ih (by simp) divided
      exact ⟨char :: read, by simp, result.keep (by simp)⟩
    | false =>
      rw [splitXfccFrom] at divided
      split at divided
      · -- An escape: the backslash is gone from what is read.
        rename_i escape
        simp only [Bool.and_eq_true, decide_eq_true_eq] at escape
        obtain ⟨rfl, rfl⟩ := escape
        obtain ⟨read, rfl, result⟩ := ih (fun _ => rfl) divided
        refine ⟨read, rfl, ?_⟩
        cases result with
        | cut split thins => exact .cut (by rw [split, cons_append]) thins.drop
        | merged thins quote => exact .merged thins.drop quote
        | whole thins _ others =>
          refine .whole thins.drop (fun _ lengths => ?_) others
          have shorter := thins.length_le
          rw [length_cons] at lengths
          omega
      rename_i notEscape
      split at divided
      · rename_i quote
        obtain ⟨read, rfl, result⟩ := ih (by simp) divided
        refine ⟨char :: read, by simp, result.keep fun _ calm => ?_⟩
        rw [settled, if_pos quote]
        exact calm
      rename_i notQuote
      split at divided
      · rename_i divider
        simp only [Bool.and_eq_true, decide_eq_true_eq] at divider
        obtain ⟨others, -, same⟩ := map_eq_some_iff.mp divided
        cases same
        exact ⟨[], by simp, .cut (by rw [divider.1, nil_append]) .nil⟩
      · rename_i notDivider
        obtain ⟨read, rfl, result⟩ := ih (by simp) divided
        refine ⟨char :: read, by simp, result.keep fun _ calm => ?_⟩
        rw [settled, if_neg notQuote, if_neg notEscape,
          if_neg (by simpa [and_comm] using notDivider)]
        exact calm

/-! ## Bytes of a value -/

theorem percentBytes_cons (plain : char ≠ '%') (rest : List Char) : percentBytes (char :: rest) =
      (printable (UInt8.ofNat char.toNat)).bind fun byte => (percentBytes rest).map (byte :: ·) := by
  rw [percentBytes.eq_def]
  split
  · rename_i same; cases same
  · rename_i same
    cases same
    exact absurd rfl plain
  · rename_i head tail _ same
    cases same
    rw [if_neg plain]
    simp only [bind, map_eq_bind]
    rfl

theorem percentBytes_percent (high low : Char) (rest : List Char) :
    percentBytes ('%' :: high :: low :: rest) =
      (hex high).bind fun first => (hex low).bind fun second =>
        (printable (UInt8.ofNat (first * 16 + second))).bind fun byte =>
          (percentBytes rest).map (byte :: ·) := by
  rw [percentBytes]
  simp only [bind, map_eq_bind]
  rfl

theorem percentBytes_short (short : rest.length < 2) : percentBytes ('%' :: rest) = none := by
  match rest with
  | [] | [_] => rfl
  | _ :: _ :: _ => simp only [length_cons] at short; omega

theorem eq_of_printable {byte shown : UInt8} (allowed : printable byte = some shown) :
    shown = byte := by
  unfold printable at allowed
  split_ifs at allowed
  exact (Option.some.inj allowed).symm

/-- Texts are built of percent sequences and other characters. -/
theorem percent_induction {motive : List Char → Prop} (nil : motive []) (short : ∀ rest : List Char,
    rest.length < 2 → motive ('%' :: rest)) (percent : ∀ high low rest, motive rest → motive ('%' ::
    high :: low :: rest)) (plain : ∀ char rest, char ≠ '%' → motive rest → motive (char :: rest)) :
    ∀ text, motive text
  | [] => nil
  | char :: rest => by
      by_cases same : char = '%'
      · subst same
        match rest with
        | [] => exact short _ (by simp)
        | [_] => exact short _ (by simp)
        | high :: low :: others =>
          exact percent high low others (percent_induction nil short percent plain others)
      · exact plain char rest same (percent_induction nil short percent plain rest)

theorem percentBytes_cons_some (plain : char ≠ '%')
    (decoded : percentBytes (char :: rest) = some bytes) :
    ∃ others, percentBytes rest = some others ∧ bytes = UInt8.ofNat char.toNat :: others ∧
      ∀ rest others, percentBytes rest = some others →
        percentBytes (char :: rest) = some (UInt8.ofNat char.toNat :: others) := by
  rw [percentBytes_cons plain] at decoded
  obtain ⟨byte, shown, tail⟩ := bind_eq_some_iff.mp decoded
  obtain ⟨others, read, rfl⟩ := map_eq_some_iff.mp tail
  cases eq_of_printable shown
  refine ⟨others, read, rfl, fun rest others read => ?_⟩
  rw [percentBytes_cons plain, shown, read]
  rfl

theorem percentBytes_percent_some {high low : Char}
    (decoded : percentBytes ('%' :: high :: low :: rest) = some bytes) :
    ∃ byte others, hex high ≠ none ∧ hex low ≠ none ∧ percentBytes rest = some others ∧
      bytes = byte :: others ∧ ∀ rest others, percentBytes rest = some others →
        percentBytes ('%' :: high :: low :: rest) = some (byte :: others) := by
  rw [percentBytes_percent] at decoded
  obtain ⟨upper, isUpper, more⟩ := bind_eq_some_iff.mp decoded
  obtain ⟨lower, isLower, further⟩ := bind_eq_some_iff.mp more
  obtain ⟨byte, shown, tail⟩ := bind_eq_some_iff.mp further
  obtain ⟨others, read, rfl⟩ := map_eq_some_iff.mp tail
  refine ⟨byte, others, by simp [isUpper], by simp [isLower], read, rfl, fun rest others read => ?_⟩
  simp only [percentBytes_percent, isUpper, isLower, bind_some, shown, read, map_some]

variable {after before : List Char}

/-- A character that is no part of a percent sequence divides the bytes as it divides the
text. -/
theorem percentBytes_append (plain : char ≠ '%') (noDigit : hex char = none)
    (decoded : percentBytes (before ++ char :: after) = some bytes) :
    ∃ first last, percentBytes before = some first ∧ percentBytes after = some last ∧
      bytes = first ++ UInt8.ofNat char.toNat :: last := by
  induction before using percent_induction generalizing bytes with
  | nil =>
    obtain ⟨others, read, rfl, -⟩ := percentBytes_cons_some plain decoded
    exact ⟨[], others, rfl, read, rfl⟩
  | short rest few =>
    -- The character would have to be one of the two digits.
    rw [cons_append] at decoded
    match rest with
    | [] =>
      cases after with
      | nil => rw [nil_append, percentBytes_short (by simp)] at decoded; cases decoded
      | cons next others =>
        obtain ⟨_, _, isUpper, -⟩ := percentBytes_percent_some decoded
        exact absurd noDigit isUpper
    | [high] =>
      obtain ⟨_, _, -, isLower, -⟩ := percentBytes_percent_some decoded
      exact absurd noDigit isLower
    | _ :: _ :: _ => simp only [length_cons] at few; omega
  | percent high low rest ih =>
    obtain ⟨byte, others, -, -, read, rfl, before⟩ := percentBytes_percent_some decoded
    obtain ⟨first, last, front, behind, rfl⟩ := ih read
    exact ⟨byte :: first, last, before _ _ front, behind, rfl⟩
  | plain head rest other ih =>
    obtain ⟨others, read, rfl, before⟩ := percentBytes_cons_some other decoded
    obtain ⟨first, last, front, behind, rfl⟩ := ih read
    exact ⟨_ :: first, last, before _ _ front, behind, rfl⟩

/-- Leaving backslashes out of a text leaves them out of its bytes. -/
theorem percentBytes_thin (thins : Thins thin full) (decoded : percentBytes full = some bytes) :
    ∃ fewer, percentBytes thin = some fewer ∧ fewer.count 0x22 = bytes.count 0x22 ∧
      fewer.length + full.length = bytes.length + thin.length := by
  induction full using percent_induction generalizing thin bytes with
  | nil =>
    cases thins
    exact ⟨bytes, decoded, rfl, rfl⟩
  | short rest few =>
    rw [percentBytes_short few] at decoded
    cases decoded
  | percent high low rest ih =>
    obtain ⟨byte, others, isUpper, isLower, read, rfl, before⟩ := percentBytes_percent_some decoded
    cases thins with
    | keep _ thins =>
      cases thins with
      | drop _ => exact absurd (by decide) isUpper
      | keep _ thins =>
        cases thins with
        | drop _ => exact absurd (by decide) isLower
        | keep _ thins =>
          obtain ⟨fewer, same, quotes, lengths⟩ := ih thins read
          refine ⟨byte :: fewer, before _ _ same, ?_, ?_⟩
          · rw [count_cons, count_cons, quotes]
          · simp only [length_cons]
            omega
  | plain head rest other ih =>
    obtain ⟨others, read, rfl, before⟩ := percentBytes_cons_some other decoded
    cases thins with
    | drop thins =>
      obtain ⟨fewer, same, quotes, lengths⟩ := ih thins read
      refine ⟨fewer, same, ?_, ?_⟩
      · rw [quotes, count_cons_of_ne (by decide)]
      · simp only [length_cons]
        omega
    | keep _ thins =>
      obtain ⟨fewer, same, quotes, lengths⟩ := ih thins read
      refine ⟨_ :: fewer, before _ _ same, ?_, ?_⟩
      · rw [count_cons, count_cons, quotes]
      · simp only [length_cons]
        omega

def fieldBytes (key : String) (value : List Char) : Option Bytes :=
  if isPercentEncoded key then percentBytes value
  else some (value.map fun char => UInt8.ofNat char.toNat)

theorem fieldBytes_append (plain : char ≠ '%') (noDigit : hex char = none)
    (decoded : fieldBytes key (before ++ char :: after) = some bytes) :
    ∃ first last, fieldBytes key before = some first ∧ fieldBytes key after = some last ∧
      bytes = first ++ UInt8.ofNat char.toNat :: last := by
  unfold fieldBytes at decoded ⊢
  split at decoded
  · rename_i encoded
    simp only [encoded, if_true]
    exact percentBytes_append plain noDigit decoded
  · rename_i direct
    rw [if_neg direct, if_neg direct]
    cases decoded
    exact ⟨_, _, rfl, rfl, by rw [map_append, map_cons]⟩

theorem fieldBytes_thin (thins : Thins thin full) (decoded : fieldBytes key full = some bytes) :
    ∃ fewer, fieldBytes key thin = some fewer ∧ fewer.count 0x22 = bytes.count 0x22 ∧
      fewer.length + full.length = bytes.length + thin.length := by
  unfold fieldBytes at decoded ⊢
  split at decoded
  · rename_i encoded
    simp only [encoded, if_true]
    exact percentBytes_thin thins decoded
  · rename_i direct
    rw [if_neg direct]
    cases decoded
    refine ⟨_, rfl, ?_, by simp [Nat.add_comm]⟩
    induction thins with
    | nil => rfl
    | keep char _ ih => rw [map_cons, map_cons, count_cons, count_cons, ih]
    | drop _ ih => rw [map_cons, count_cons_of_ne (by decide), ih]

/-- Two values that are reported as the same text have the same bytes. -/
theorem fieldBytes_of_fieldValue {key text : String} {first second : List Char}
    (left : fieldValue key first = some text) (right : fieldValue key second = some text) :
    ∃ bytes, fieldBytes key first = some bytes ∧ fieldBytes key second = some bytes := by
  unfold fieldValue at left right
  unfold fieldBytes
  split at left
  · rename_i encoded
    simp only [encoded, if_true] at right ⊢
    obtain ⟨bytes, decoded, spelled⟩ := bind_eq_some_iff.mp left
    obtain ⟨others, decodedToo, spelledToo⟩ := bind_eq_some_iff.mp right
    refine ⟨bytes, decoded, ?_⟩
    rw [decodedToo, Http.utf8_fromUtf8 spelled, Http.utf8_fromUtf8 spelledToo]
  · rename_i direct
    rw [if_neg direct] at right
    rw [if_neg direct, if_neg direct]
    have same := String.ofList_injective (Option.some.inj (left.trans right.symm))
    exact ⟨_, rfl, by rw [same]⟩

variable {blanks : List Char}

/-- The last quote of a text is where the blanks behind it begin. -/
theorem last_quote {more seen : List Char} (noQuote : '"' ∉ blanks)
    (same : thin ++ '"' :: more = seen ++ '"' :: blanks) :
    (seen = thin ∧ more = blanks) ∨
      ∃ front, seen = thin ++ '"' :: front ∧ more = front ++ '"' :: blanks := by
  rcases append_eq_append_iff.mp same with ⟨middle, rfl, rest⟩ | ⟨middle, rfl, rest⟩
  · cases middle with
    | nil => exact .inl ⟨by simp, (List.cons.inj rest).2⟩
    | cons char front =>
      obtain ⟨rfl, ends⟩ := List.cons.inj rest
      exact .inr ⟨front, rfl, ends⟩
  · cases middle with
    | nil => exact .inl ⟨by simp, (List.cons.inj rest).2.symm⟩
    | cons char front =>
      obtain ⟨-, rfl⟩ := List.cons.inj rest
      exact absurd (by simp) noQuote

/-- A quoted field whose value comes back as it was written has been read to its end, and
its value is settled. -/
theorem Divided.settled_of_reported {key text : String} {read seen : List Char}
    (divided : Divided true false value tail parts read) (ended : read = seen ++ '"' :: blanks)
    (white : ∀ char ∈ blanks, isWhitespace char = true) (written : fieldValue key value = some text)
    (reported : fieldValue key seen = some text) :
    settled true value = true ∧ Onward tail parts := by
  obtain ⟨bytes, full, found⟩ := fieldBytes_of_fieldValue written reported
  have noQuote : '"' ∉ blanks := fun member => by cases white _ member
  cases divided with
  | cut split thins =>
    -- What stands before the semicolon has one quote more than the value it is read as.
    subst split ended
    obtain ⟨front, back, decoded, -, rfl⟩ := fieldBytes_append (by decide) (by decide) full
    obtain ⟨fewer, thinned, quotes, -⟩ := fieldBytes_thin thins decoded
    obtain ⟨first, last, same, -, rfl⟩ := fieldBytes_append (by decide) (by decide) thinned
    cases same.symm.trans found
    simp [count_append] at quotes
  | merged thins quote =>
    -- The quote behind the value is read as one of its own.
    rcases last_quote noQuote ended with ⟨-, rfl⟩ | ⟨front, rfl, -⟩
    · exact absurd quote noQuote
    · obtain ⟨first, last, decoded, -, rfl⟩ := fieldBytes_append (by decide) (by decide) found
      obtain ⟨fewer, thinned, quotes, -⟩ := fieldBytes_thin thins full
      cases thinned.symm.trans decoded
      simp [count_append] at quotes
  | whole thins calm rest =>
    rcases last_quote noQuote ended with ⟨rfl, -⟩ | ⟨front, -, impossible⟩
    · obtain ⟨fewer, thinned, -, lengths⟩ := fieldBytes_thin thins full
      cases thinned.symm.trans found
      exact ⟨calm rfl (by omega), rest⟩
    · simp at impossible

theorem hex_whitespace (white : isWhitespace char = true) : char ≠ '%' ∧ hex char = none := by
  refine ⟨fun same => absurd (same ▸ white) (by decide), ?_⟩
  simp only [isWhitespace, Bool.or_eq_true, Bool.and_eq_true, decide_eq_true_eq, beq_iff_eq]
    at white
  simp only [hex, Bool.and_eq_true, decide_eq_true_eq]
  rw [if_neg (by omega), if_neg (by omega), if_neg (by omega)]

/-- Blanks around a value are bytes of their own. -/
theorem fieldBytes_blanks (leading : ∀ char ∈ before, isWhitespace char = true)
    (trailing : ∀ char ∈ after, isWhitespace char = true)
    (decoded : fieldBytes key (before ++ (value ++ after)) = some bytes) :
    ∃ fewer, fieldBytes key value = some fewer ∧
      before.length + fewer.length + after.length ≤ bytes.length := by
  induction before generalizing bytes with
  | nil =>
    rw [nil_append] at decoded
    induction after generalizing value with
    | nil => exact ⟨bytes, by simpa using decoded, by simp⟩
    | cons char rest ih =>
      obtain ⟨plain, noDigit⟩ := hex_whitespace (trailing char (by simp))
      rw [append_cons] at decoded
      obtain ⟨longer, found, shorter⟩ := ih (forall_mem_cons.mp trailing).2 decoded
      obtain ⟨first, last, front, -, rfl⟩ := fieldBytes_append plain noDigit found
      refine ⟨first, front, ?_⟩
      simp only [length_cons, length_append] at shorter ⊢
      omega
  | cons char rest ih =>
    obtain ⟨plain, noDigit⟩ := hex_whitespace (leading char (by simp))
    rw [cons_append, ← nil_append (char :: _)] at decoded
    obtain ⟨first, last, -, more, rfl⟩ := fieldBytes_append plain noDigit decoded
    obtain ⟨fewer, found, shorter⟩ := ih (forall_mem_cons.mp leading).2 more
    refine ⟨fewer, found, ?_⟩
    simp only [length_cons, length_append]
    omega

theorem trim_append (text : List Char) : ∃ before after, text = before ++ (trim text ++ after) ∧
      (∀ char ∈ before, isWhitespace char = true) ∧ ∀ char ∈ after, isWhitespace char = true := by
  obtain ⟨after, rest, white⟩ := rdropWhile_append isWhitespace (text.dropWhile isWhitespace)
  refine ⟨text.takeWhile isWhitespace, after, ?_, fun char => mem_takeWhile_imp, white⟩
  unfold trim
  rw [← rest, takeWhile_append_dropWhile]

/-- A value that comes back although it was trimmed had nothing to trim. -/
theorem trim_of_reported {key text : String} (written : fieldValue key value = some text)
    (reported : fieldValue key (trim value) = some text) : trim value = value := by
  obtain ⟨bytes, full, found⟩ := fieldBytes_of_fieldValue written reported
  obtain ⟨before, after, whole, leading, trailing⟩ := trim_append value
  rw [whole] at full
  obtain ⟨fewer, trimmed, blanks⟩ := fieldBytes_blanks leading trailing full
  cases trimmed.symm.trans found
  have noFront : before = [] := eq_nil_of_length_eq_zero (by omega)
  have noBack : after = [] := eq_nil_of_length_eq_zero (by omega)
  rw [noFront, noBack, nil_append, append_nil] at whole
  exact whole.symm

/-! ## Headers -/

def following (others : List XfccField) : List Char :=
  if others = [] then [] else ';' :: joined (others.map XfccField.bare)

theorem joined_bare_cons (field : XfccField) (others : List XfccField) :
    joined ((field :: others).map XfccField.bare) = field.bare ++ following others := by
  unfold following joined
  cases others with
  | nil => simp
  | cons second rest => simp

theorem following_cases (others : List XfccField) :
    following others = [] ∨ ∃ rest, following others = ';' :: rest := by
  unfold following
  split
  · exact .inl rfl
  · exact .inr ⟨_, rfl⟩

theorem following_onward (onward : Onward (following others) parts) : others = [] ∧ parts = [] ∨
    others ≠ [] ∧ splitXfcc ';' (joined (others.map XfccField.bare)) = some parts := by
  unfold Onward following at onward
  split_ifs at onward with last
  · rcases onward with ⟨-, none⟩ | ⟨_, ⟨⟩, -⟩
    exact .inl ⟨last, none⟩
  · rcases onward with ⟨⟨⟩, -⟩ | ⟨_, same, divided⟩
    cases same
    exact .inr ⟨last, divided⟩

/-- The first part of a header is read under the key of its first field.  When it is also
read as that field's value, the field is tidy and the other parts are those of the other
fields. -/
theorem splitXfcc_first
    (divided : splitXfcc ';' (joined ((field :: others).map XfccField.bare)) = some pairs) :
    ∃ part parts, pairs = part :: parts ∧ ∀ key text, parsePair part = some (key, text) →
      key = field.lowerKey ∧ (field.reported = some text → field.tidy = true ∧ (others = [] ∧ parts = [] ∨
          others ≠ [] ∧ splitXfcc ';' (joined (others.map XfccField.bare)) = some parts)) := by
  rw [joined_bare_cons] at divided
  unfold splitXfcc at divided
  cases quoted : field.quoted with
  | false =>
    rw [field.splitXfccFrom_bare (by simp [quoted]), nil_append] at divided
    obtain ⟨parts, rfl, rest⟩ := splitXfccFrom_onward (following_cases others) divided
    refine ⟨_, parts, rfl, fun key text read => ?_⟩
    obtain ⟨named, reported⟩ := field.parsePair_unquoted quoted read
    refine ⟨named, fun written => ⟨?_, following_onward rest⟩⟩
    rw [XfccField.tidy, if_neg (by simp [quoted]), trim_of_reported written reported]
    exact beq_self_eq_true _
  | true =>
    obtain ⟨more, parts, rfl, -⟩ := splitXfccFrom_extends divided
    refine ⟨_, parts, rfl, fun key text read => ?_⟩
    unfold XfccField.bare at divided
    rw [append_cons, append_assoc, splitXfccFrom_plain (field.key_plain (by simp)), if_pos quoted,
      nil_append, cons_append, cons_append, append_assoc, cons_append, nil_append, splitXfccFrom,
      if_neg (by simp), if_pos rfl, Bool.not_false] at divided
    obtain ⟨rest, same, shape⟩ := splitXfccFrom_divided (by simp) (following_cases others) divided
    rw [same, append_assoc, append_assoc, cons_append, nil_append, cons_append, nil_append,
      field.parsePair_text] at read
    obtain ⟨seen, between, named⟩ := bind_eq_some_iff.mp read
    obtain ⟨_, reported, same⟩ := map_eq_some_iff.mp named
    cases same
    obtain ⟨blanks, ended, white⟩ := xfccValue_trim between
    refine ⟨rfl, fun written => ?_⟩
    obtain ⟨calm, rest⟩ := shape.settled_of_reported ended white written reported
    exact ⟨by rw [XfccField.tidy, if_pos quoted, calm], following_onward rest⟩

theorem tidy_of_parsePairs (some_field : fields ≠ []) (divided : splitXfcc ';' (joined (fields.map
    XfccField.bare)) = some pairs) (read : parsePairs pairs start = some parsed) (back : ∀ key,
    (valuesAt parsed key).map some = (valuesAt start key).map some ++ (fields.filter fun field =>
    field.lowerKey == key).map XfccField.reported) :
    ∀ field ∈ fields, field.tidy = true := by
  induction fields generalizing pairs start with
  | nil => exact absurd rfl some_field
  | cons field others ih =>
    obtain ⟨part, parts, rfl, first⟩ := splitXfcc_first divided
    obtain ⟨⟨key, text⟩, next, pair, added, rest⟩ := parsePairs_cons read
    obtain ⟨rfl, settles⟩ := first key text pair
    have here := back field.lowerKey
    obtain ⟨behind, ahead⟩ := parsePairs_extends rest field.lowerKey
    rw [filter_cons_of_pos (by simp), map_cons, ← ahead, valuesAt_addField added, if_pos rfl,
      map_append, map_append, append_assoc, append_cancel_left_eq] at here
    have reported : field.reported = some text := (List.cons.inj here).1.symm
    obtain ⟨tidy, onward⟩ := settles reported
    intro other member
    rcases mem_cons.mp member with rfl | member
    · exact tidy
    · rcases onward with ⟨none, -⟩ | ⟨more, divided⟩
      · rw [none] at member
        cases member
      · refine ih more divided rest (fun key => ?_) other member
        rw [back key, valuesAt_reported added reported]

theorem parseXfcc_header {maximumBytes : Nat}
    (accepted : parseXfcc (xfccHeader fields) maximumBytes = some parsed) :
    ∃ pairs, splitXfcc ';' (joined (fields.map XfccField.bare)) = some pairs ∧
      parsePairs pairs OrderedMap.empty = some parsed := by
  unfold parseXfcc at accepted
  split_ifs at accepted
  rw [xfccHeader, String.toList_ofList, splitXfcc_header] at accepted
  simp only at accepted
  split_ifs at accepted
  exact bind_eq_some_iff.mp accepted

theorem xfccHeader_nil : xfccHeader [] = "" := by decide +kernel

/-- An accepted header gives its fields back exactly when all of them are tidy. -/
theorem xfcc_gives_back_iff {fields : List XfccField} {maximumBytes : Nat} {parsed : XfccFields}
    (accepted : parseXfcc (xfccHeader fields) maximumBytes = some parsed) :
    GivesBack fields parsed ↔ ∀ field ∈ fields, field.tidy = true := by
  have some_field : fields ≠ [] := by
    rintro rfl
    rw [xfccHeader_nil, parseXfcc, if_pos (by simp)] at accepted
    cases accepted
  obtain ⟨pairs, divided, read⟩ := parseXfcc_header accepted
  constructor
  · intro back
    exact tidy_of_parsePairs some_field divided read fun key => by
      rw [back key]
      rfl
  · intro tidy key
    have calm : ∀ field ∈ fields, field.quoted = true → settled true field.value = true := by
      intro field member quoted
      have calm := tidy field member
      rwa [XfccField.tidy, if_pos quoted] at calm
    rw [splitXfcc_bare some_field calm, Option.some.injEq] at divided
    subst divided
    rw [parsePairs_bare tidy read key]
    rfl

namespace Sample

def certificateHash : List Char := List.replicate 64 'a'

def hashField : XfccField :=
  ⟨"Hash", certificateHash, false, by decide, forall_mem_of_all (by decide),
    fun _ => forall_mem_of_all (by decide)⟩

def uriField : XfccField :=
  ⟨"URI", "spiffe://example.org/web".toList, false, by decide,
    forall_mem_of_all (by decide +kernel), fun _ => forall_mem_of_all (by decide +kernel)⟩

def subjectField : XfccField :=
  ⟨"Subject", "CN=web;O=\"a, b\"".toList, true, by decide, forall_mem_of_all (by decide +kernel),
    nofun⟩

/-- A subject that closes the quotes around it and goes on with a field of its own. -/
def forgedSubject : XfccField :=
  ⟨"Subject", "web\";URI=\"spiffe://example.org/admin".toList, true, by decide,
    forall_mem_of_all (by decide +kernel), nofun⟩

def envoyConfig : EnvoyConfig := ⟨["example.org"], fun _ => true, "x-forwarded-client-cert", 8192⟩

end Sample

open Sample

/-- A subject with balanced quotes comes back. -/
theorem xfcc_gives_back_subject :
    ∃ parsed, parseXfcc (xfccHeader [hashField, subjectField, uriField]) 8192 = some parsed ∧
    GivesBack [hashField, subjectField, uriField] parsed :=
  ⟨_, eq_some_of_isSome (by decide +kernel),
    (xfcc_gives_back_iff (eq_some_of_isSome (by decide +kernel))).mpr (by decide +kernel)⟩

/-- A subject of the client's choosing makes an identity of a certificate without a URI. -/
theorem forged_subject_adds_uri :
    (∃ parsed, parseXfcc (xfccHeader [hashField, forgedSubject]) 8192 = some parsed ∧
      ¬ GivesBack [hashField, forgedSubject] parsed) ∧
    resolveEnvoy envoyConfig none (fun _ => .ok (some (xfccHeader [hashField, forgedSubject]))) =
      .available ⟨"spiffe://example.org/admin", "example.org", String.ofList certificateHash,
        none⟩ := by
  refine ⟨⟨_, eq_some_of_isSome (by decide +kernel), fun back => ?_⟩, by decide +kernel⟩
  have uris := back "uri"
  revert uris
  decide +kernel

end VgiRpc.Auth

