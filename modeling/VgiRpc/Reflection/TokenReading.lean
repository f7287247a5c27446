import Mathlib
import VgiRpc.Reflection.TypeTokens

/-!
# Reading tokens

A token is the text of a labelled term: a word with parameters in parentheses at its head,
and the children with their names and marks as labels.  Such a term can be read back, and
gives the normalised type.
-/

namespace VgiRpc.Reflection

open Arrow List Library
open Labelled.Spelling (marking)
open String (toList_inj)

/-! ## Types as terms -/

inductive Parameter where
  | none
  | unit (unit : TimeUnit) (zone : Option String)
  | size (size : Int)
  | decimal (precision : Nat) (scale : Int)

@[ext]
structure Head where
  word : String
  parameter : Parameter
  keysSorted : Bool

structure ChildLabel where
  code : Int
  name : String
  nullable : Bool

abbrev Term := Labelled Head ChildLabel

def Term.leaf (word : String) (parameter : Parameter) : Term := .node ⟨word, parameter, false⟩ []

mutual

def term : DataType → Term
  | .null => .leaf "null" .none
  | .boolean => .leaf "bool" .none
  | .int8 => .leaf "int8" .none
  | .int16 => .leaf "int16" .none
  | .int32 => .leaf "int32" .none
  | .int64 => .leaf "int64" .none
  | .uint8 => .leaf "uint8" .none
  | .uint16 => .leaf "uint16" .none
  | .uint32 => .leaf "uint32" .none
  | .uint64 => .leaf "uint64" .none
  | .float16 => .leaf "float16" .none
  | .float32 => .leaf "float32" .none
  | .float64 => .leaf "float64" .none
  | .utf8 => .leaf "utf8" .none
  | .largeUtf8 => .leaf "large_utf8" .none
  | .utf8View => .leaf "utf8_view" .none
  | .binary => .leaf "binary" .none
  | .largeBinary => .leaf "large_binary" .none
  | .binaryView => .leaf "binary_view" .none
  | .fixedSizeBinary width => .leaf "fixed_size_binary" (.size width)
  | .date32 => .leaf "date32" .none
  | .date64 => .leaf "date64" .none
  | .time32 unit => .leaf "time32" (.unit unit none)
  | .time64 unit => .leaf "time64" (.unit unit none)
  | .timestamp unit zone => .leaf "timestamp" (.unit unit zone)
  | .duration unit => .leaf "duration" (.unit unit none)
  | .interval .yearMonth => .leaf "interval_months" .none
  | .interval .dayTime => .leaf "interval_day_time" .none
  | .interval .monthDayNano => .leaf "interval_month_day_nano" .none
  | .decimal32 precision scale => .leaf "decimal32" (.decimal precision scale)
  | .decimal64 precision scale => .leaf "decimal64" (.decimal precision scale)
  | .decimal128 precision scale => .leaf "decimal128" (.decimal precision scale)
  | .decimal256 precision scale => .leaf "decimal256" (.decimal precision scale)
  | .list item => .node ⟨"list", .none, false⟩ [childTerm "item" item]
  | .largeList item => .node ⟨"large_list", .none, false⟩ [childTerm "item" item]
  | .listView item => .node ⟨"list_view", .none, false⟩ [childTerm "item" item]
  | .largeListView item => .node ⟨"large_list_view", .none, false⟩ [childTerm "item" item]
  | .fixedSizeList item size => .node ⟨"fixed_size_list", .size size, false⟩ [childTerm "item" item]
  | .struct fields => .node ⟨"struct", .none, false⟩ (fieldTerms fields)
  | .map (.mk _ (.struct [key, value]) _ _) keysSorted =>
    .node ⟨"map", .none, keysSorted⟩ [childTerm "key" key, childTerm "value" value]
  | .map _ _ => .node ⟨"map", .none, false⟩ []
  | .dictionary index value =>
    .node ⟨"dictionary", .none, false⟩
      [(⟨0, "index", false⟩, term index), (⟨0, "value", false⟩, term value)]
  | .runEndEncoded (.mk _ runEnds _ _) (.mk _ values _ _) =>
    .node ⟨"run_end_encoded", .none, false⟩
      [(⟨0, "run_ends", false⟩, term runEnds), (⟨0, "values", false⟩, term values)]
  | .union fields .sparse => .node ⟨"sparse_union", .none, false⟩ (codeTerms fields)
  | .union fields .dense => .node ⟨"dense_union", .none, false⟩ (codeTerms fields)

def childTerm (name : String) : Field → ChildLabel × Term
  | .mk _ dataType nullable _ => (⟨0, name, nullable⟩, term dataType)

def fieldTerms : List Field → List (ChildLabel × Term)
  | [] => []
  | field :: rest => childTerm field.name field :: fieldTerms rest

def codeTerms : List (Int × Field) → List (ChildLabel × Term)
  | [] => []
  | (code, field) :: rest => (⟨code, field.name, field.nullable⟩, (childTerm "" field).2) :: codeTerms rest

end

/-! ## Terms as types -/

def ChildLabel.field (label : ChildLabel) (dataType : DataType) : Field :=
  .mk label.name dataType label.nullable []

def Parameter.timeUnit : Parameter → TimeUnit
  | .unit precision _ => precision
  | _ => .second

def Parameter.count : Parameter → Int
  | .size count => count
  | _ => 0

def Parameter.digits : Parameter → Nat × Int
  | .decimal precision scale => (precision, scale)
  | _ => (0, 0)

def itemOf : List (ChildLabel × DataType) → Field
  | [item] => item.1.field item.2
  | _ => .mk "" .null false []

def build (head : Head) (children : List (ChildLabel × DataType)) : DataType :=
  match head.word with
  | "bool" => .boolean
  | "int8" => .int8
  | "int16" => .int16
  | "int32" => .int32
  | "int64" => .int64
  | "uint8" => .uint8
  | "uint16" => .uint16
  | "uint32" => .uint32
  | "uint64" => .uint64
  | "float16" => .float16
  | "float32" => .float32
  | "float64" => .float64
  | "utf8" => .utf8
  | "large_utf8" => .largeUtf8
  | "utf8_view" => .utf8View
  | "binary" => .binary
  | "large_binary" => .largeBinary
  | "binary_view" => .binaryView
  | "fixed_size_binary" => .fixedSizeBinary head.parameter.count
  | "date32" => .date32
  | "date64" => .date64
  | "time32" => .time32 head.parameter.timeUnit
  | "time64" => .time64 head.parameter.timeUnit
  | "timestamp" =>
    match head.parameter with
    | .unit unit zone => .timestamp unit zone
    | _ => .null
  | "duration" => .duration head.parameter.timeUnit
  | "interval_months" => .interval .yearMonth
  | "interval_day_time" => .interval .dayTime
  | "interval_month_day_nano" => .interval .monthDayNano
  | "decimal32" => .decimal32 head.parameter.digits.1 head.parameter.digits.2
  | "decimal64" => .decimal64 head.parameter.digits.1 head.parameter.digits.2
  | "decimal128" => .decimal128 head.parameter.digits.1 head.parameter.digits.2
  | "decimal256" => .decimal256 head.parameter.digits.1 head.parameter.digits.2
  | "list" => .list (itemOf children)
  | "large_list" => .largeList (itemOf children)
  | "list_view" => .listView (itemOf children)
  | "large_list_view" => .largeListView (itemOf children)
  | "fixed_size_list" => .fixedSizeList (itemOf children) head.parameter.count
  | "struct" => .struct (children.map fun child => child.1.field child.2)
  | "map" =>
    .map (.mk "entries" (.struct (children.map fun child => child.1.field child.2)) false [])
      head.keysSorted
  | "dictionary" =>
    match children with
    | [index, value] => .dictionary index.2 value.2
    | _ => .null
  | "run_end_encoded" =>
    match children with
    | [runEnds, values] =>
      .runEndEncoded (.mk "run_ends" runEnds.2 false []) (.mk "values" values.2 true [])
    | _ => .null
  | "sparse_union" => .union (children.map fun child => (child.1.code, child.1.field child.2)) .sparse
  | "dense_union" => .union (children.map fun child => (child.1.code, child.1.field child.2)) .dense
  | _ => .null

mutual

def typeOf : Term → DataType
  | .node head children => build head (typesOf children)

def typesOf : List (ChildLabel × Term) → List (ChildLabel × DataType)
  | [] => []
  | child :: rest => (child.1, typeOf child.2) :: typesOf rest

end

/-! ## Spelling -/

def Parameter.text : Parameter → Option (List Char)
  | .none => .none
  | .unit precision .none => some (unitToken precision).toList
  | .unit precision (some zone) =>
    some ((unitToken precision).toList ++ ',' :: 't' :: 'z' :: '=' :: zone.toList)
  | .size count => some count.repr.toList
  | .decimal precision scale => some (precision.repr.toList ++ ',' :: scale.repr.toList)

def parenthesised : Option (List Char) → List Char
  | none => []
  | some text => '(' :: (text ++ [')'])

def unionWords : List String := ["sparse_union", "dense_union"]

def nestedWords : List String :=
  ["list", "large_list", "list_view", "large_list_view", "fixed_size_list", "struct", "map",
    "dictionary", "run_end_encoded", "sparse_union", "dense_union"]

def spelling : Labelled.Spelling Head ChildLabel where
  head head := head.word.toList ++ parenthesised head.parameter.text
  bracketed head := nestedWords.contains head.word
  label head label :=
    (if unionWords.contains head.word then label.code.repr.toList ++ ['='] else []) ++
      (label.name.toList ++ (nullableMark label.nullable).toList)
  marked head := head.keysSorted
  mark := "keys_sorted".toList

def isWordChar (char : Char) : Bool :=
  (97 ≤ char.toNat && char.toNat ≤ 122) || (48 ≤ char.toNat && char.toNat ≤ 57) || char == '_'

def parameterIdx (word : String) : Nat :=
  if ["time32", "time64", "timestamp", "duration"].contains word then 1
  else if ["fixed_size_binary", "fixed_size_list"].contains word then 2
  else if ["decimal32", "decimal64", "decimal128", "decimal256"].contains word then 3
  else 0

def Parameter.Plain : Parameter → Prop
  | .unit _ (some zone) => plainZone zone = true
  | _ => True

structure GoodHead (head : Head) : Prop where
  letters : head.word.toList.all isWordChar = true
  fits : head.parameter.ctorIdx = parameterIdx head.word
  plain : head.parameter.Plain

structure GoodLabel (word : String) (label : ChildLabel) : Prop where
  plain : plainName label.name = true
  code : unionWords.contains word = false → label.code = 0

/-! ## The spelling is readable -/

variable {char : Char} {parameter : Parameter} {coded : Bool}

theorem mem_intRepr {value : Int} (member : char ∈ value.repr.toList) :
    char.isDigit = true ∨ char = '-' := by
  cases value with
  | ofNat value =>
    rw [Int.repr, Nat.toList_repr] at member
    exact .inl (Nat.isDigit_of_mem_toDigits (by decide) (by decide) member)
  | negSucc value =>
    rw [Int.repr, String.toList_append, mem_append, Nat.toList_repr] at member
    rcases member with sign | digit
    · exact .inr (by simpa using sign)
    · exact .inl (Nat.isDigit_of_mem_toDigits (by decide) (by decide) digit)

theorem notMem_intRepr (digit : char.isDigit = false) (sign : char ≠ '-') (value : Int) :
    char ∉ value.repr.toList := by
  intro member
  rcases mem_intRepr member with isDigit | isSign
  · rw [digit] at isDigit
    cases isDigit
  · exact sign isSign

theorem notMem_natRepr (digit : char.isDigit = false) (value : Nat) : char ∉ value.repr.toList := by
  intro member
  rw [Nat.toList_repr] at member
  rw [Nat.isDigit_of_mem_toDigits (by decide) (by decide) member] at digit
  cases digit

theorem unitToken_facts (unit : TimeUnit) :
    ')' ∉ (unitToken unit).toList ∧ ',' ∉ (unitToken unit).toList := by
  cases unit <;> decide

theorem unitToken_inj {unit other : TimeUnit}
    (same : (unitToken unit).toList = (unitToken other).toList) : unit = other := by
  cases unit <;> cases other <;> first | rfl | exact absurd same (by decide)

theorem Parameter.text_inj {parameter other : Parameter} (kinds : parameter.ctorIdx = other.ctorIdx)
    (same : parameter.text = other.text) : parameter = other := by
  cases parameter with
  | none =>
    cases other with
    | none => rfl
    | _ => cases kinds
  | unit precision zone =>
    cases other with
    | unit otherPrecision otherZone =>
      have comma := (unitToken_facts precision).2
      have otherComma := (unitToken_facts otherPrecision).2
      cases zone <;> cases otherZone <;>
        simp only [Parameter.text, Option.some.injEq] at same
      · rw [unitToken_inj same]
      · exact absurd (by rw [same]; simp) comma
      · exact absurd (by rw [← same]; simp) otherComma
      · obtain ⟨units, zones⟩ := append_cons_inj comma otherComma same
        simp only [List.cons.injEq, true_and] at zones
        rw [unitToken_inj units, toList_inj.mp zones]
    | _ => cases kinds
  | size count =>
    cases other with
    | size otherCount =>
      rw [Int.repr_injective (toList_inj.mp (Option.some.inj same))]
    | _ => cases kinds
  | decimal precision scale =>
    cases other with
    | decimal otherPrecision otherScale =>
      obtain ⟨precisions, scales⟩ := append_cons_inj (notMem_natRepr (by decide) precision)
        (notMem_natRepr (by decide) otherPrecision) (Option.some.inj same)
      rw [Nat.repr_injective (toList_inj.mp precisions),
        Int.repr_injective (toList_inj.mp scales)]
    | _ => cases kinds

theorem Parameter.Plain.notMem (plain : parameter.Plain) : ∀ text ∈ parameter.text, ')' ∉ text := by
  intro text known
  cases parameter with
  | none => cases known
  | unit precision zone =>
    cases zone with
    | none =>
      cases known
      exact (unitToken_facts precision).1
    | some zone =>
      cases known
      have free : ')' ∉ zone.toList := by simpa [Parameter.Plain, plainZone] using plain
      simp [(unitToken_facts precision).1, free]
  | size count =>
    cases known
    exact notMem_intRepr (by decide) (by decide) count
  | decimal precision scale =>
    cases known
    rw [List.mem_append, List.mem_cons]
    rintro (inPrecision | comma | inScale)
    · exact notMem_natRepr (by decide) precision inPrecision
    · exact absurd comma (by decide)
    · exact notMem_intRepr (by decide) (by decide) scale inScale

theorem parenthesised_append_inj {text other : Option (List Char)} {rest more : List Char}
    (free : ∀ inner ∈ text, ')' ∉ inner) (alsoFree : ∀ inner ∈ other, ')' ∉ inner)
    (stops : Labelled.Stops rest) (alsoStops : Labelled.Stops more)
    (same : parenthesised text ++ rest = parenthesised other ++ more) :
    text = other ∧ rest = more := by
  cases text with
  | none =>
    cases other with
    | none => exact ⟨rfl, same⟩
    | some inner =>
      exact absurd (stops '(' (by rw [show rest = _ from same]; rfl)) (by decide)
  | some inner =>
    cases other with
    | none =>
      exact absurd (alsoStops '(' (by rw [show more = _ from same.symm]; rfl)) (by decide)
    | some others =>
      simp only [parenthesised, List.cons_append, List.append_assoc, List.nil_append,
        List.cons.injEq, true_and] at same
      obtain ⟨rfl, tail⟩ := append_cons_inj (free _ rfl) (alsoFree _ rfl) same
      exact ⟨rfl, tail⟩

theorem stops_word {text : Option (List Char)} {rest : List Char} (stops : Labelled.Stops rest) :
    ∀ char ∈ (parenthesised text ++ rest).head?, ¬ isWordChar char = true := by
  intro char member
  cases text with
  | some inner =>
    cases member
    decide
  | none =>
    rcases stops char member with rfl | rfl | rfl <;> decide

/-- The word and the parameters of a head are told from what stands behind them. -/
theorem GoodHead.append_inj {head other : Head} (good : GoodHead head) (also : GoodHead other)
    {rest more : List Char} (stops : Labelled.Stops rest) (alsoStops : Labelled.Stops more)
    (same : spelling.head head ++ rest = spelling.head other ++ more) :
    head.word = other.word ∧ head.parameter = other.parameter ∧ rest = more := by
  simp only [spelling, append_assoc] at same
  obtain ⟨words, behind⟩ := append_inj_of_stops (all_eq_true.mp good.letters)
    (all_eq_true.mp also.letters) (stops_word stops) (stops_word alsoStops) same
  obtain ⟨texts, tail⟩ :=
    parenthesised_append_inj good.plain.notMem also.plain.notMem stops alsoStops behind
  have words : head.word = other.word := toList_inj.mp words
  have kinds : head.parameter.ctorIdx = other.parameter.ctorIdx := by
    rw [good.fits, also.fits, words]
  exact ⟨words, Parameter.text_inj kinds texts, tail⟩

variable {name : String}

theorem plainName_iff : plainName name = true ↔
      ':' ∉ name.toList ∧ ',' ∉ name.toList ∧ name.toList.getLast? ≠ some '?' := by
  simp [plainName, and_assoc]

/-- The mark of a nullable child is told from its name. -/
theorem marked_inj {other : String} {nullable alsoNullable : Bool} (plain : plainName name = true)
    (alsoPlain : plainName other = true) (same : name.toList ++ (nullableMark nullable).toList =
      other.toList ++ (nullableMark alsoNullable).toList) : name = other ∧ nullable = alsoNullable := by
  have last := (plainName_iff.mp plain).2.2
  have alsoLast := (plainName_iff.mp alsoPlain).2.2
  cases nullable <;> cases alsoNullable <;>
    simp only [nullableMark, Bool.false_eq_true, if_false, if_true, String.toList_empty,
      append_nil] at same
  · exact ⟨toList_inj.mp same, rfl⟩
  · exact absurd (by rw [same]; simp) last
  · exact absurd (by rw [← same]; simp) alsoLast
  · exact ⟨toList_inj.mp (append_cancel_right same), rfl⟩

variable {head : Head} {dataType : DataType} {token : String} {fields : List (Int × Field)}
  {parts : List String} {label : ChildLabel}

theorem GoodLabel.label_inj {other : ChildLabel} (good : GoodLabel head.word label)
    (also : GoodLabel head.word other)
    (same : spelling.label head label = spelling.label head other) : label = other := by
  obtain ⟨code, name, nullable⟩ := label
  obtain ⟨otherCode, otherName, otherNullable⟩ := other
  simp only [spelling] at same
  cases union : unionWords.contains head.word with
  | true =>
    simp only [union, if_true, append_assoc, cons_append, nil_append] at same
    obtain ⟨codes, names⟩ := append_cons_inj (notMem_intRepr (by decide) (by decide) code)
      (notMem_intRepr (by decide) (by decide) otherCode) same
    obtain ⟨rfl, rfl⟩ := marked_inj good.plain also.plain names
    rw [Int.repr_injective (toList_inj.mp codes)]
  | false =>
    simp only [union, Bool.false_eq_true, if_false, nil_append] at same
    obtain ⟨rfl, rfl⟩ := marked_inj good.plain also.plain same
    rw [show code = 0 from good.code union, show otherCode = 0 from also.code union]

theorem GoodLabel.notMem (good : GoodLabel head.word label) :
    ':' ∉ spelling.label head label ∧ ',' ∉ spelling.label head label := by
  obtain ⟨colon, comma, -⟩ := plainName_iff.mp good.plain
  have free : ∀ char ∉ label.name.toList, char.isDigit = false → char ∉ ['-', '=', '?'] →
      char ∉ spelling.label head label := by
    intro char notName digit mark member
    simp only [mem_cons, not_mem_nil, or_false, not_or] at mark
    simp only [spelling, mem_append] at member
    rcases member with code | name | nullable
    · split at code
      · rcases mem_append.mp code with inCode | equals
        · exact notMem_intRepr digit mark.1 _ inCode
        · exact mark.2.1 (by simpa using equals)
      · cases code
    · exact notName name
    · cases nullable : label.nullable <;> simp_all [nullableMark]
  exact ⟨free _ colon (by decide) (by decide), free _ comma (by decide) (by decide)⟩

theorem spelling_readable : spelling.Readable GoodHead fun head => GoodLabel head.word where
  head good also stops alsoStops same := by
    obtain ⟨words, parameters, tail⟩ := good.append_inj also stops alsoStops same
    exact ⟨by simp only [spelling, words, parameters], tail⟩
  alike good also same := by
    have none_stops : Labelled.Stops [] := fun char member => by cases member
    obtain ⟨words, parameters, -⟩ :=
      good.append_inj also none_stops none_stops (congrArg (· ++ []) same)
    refine ⟨by simp only [spelling, words], by simp only [spelling, words], by rw [words], ?_⟩
    intro sorted
    exact Head.ext words parameters sorted
  label good also same := good.label_inj also same
  plain good := good.notMem
  mark := by decide

/-! ## Tokens are texts of terms -/

abbrev GoodTerm (read : Term) : Prop :=
  Labelled.Good spelling GoodHead (fun head => GoodLabel head.word) read

structure Reads (dataType : DataType) (token : String) : Prop where
  text : token.toList = Labelled.write spelling (term dataType)
  back : typeOf (term dataType) = normalise dataType
  good : plainType dataType = true → GoodTerm (term dataType)

variable {word : String}

theorem leaf_reads {token : String} (shape : term dataType = .leaf word parameter) (flat :
    nestedWords.contains word = false) (letters : word.toList.all isWordChar = true) (fits :
    parameter.ctorIdx = parameterIdx word) (text : token.toList = word.toList ++ parenthesised
    parameter.text) (built : build ⟨word, parameter, false⟩ [] = normalise dataType) (plain :
    plainType dataType = true → parameter.Plain) : Reads dataType token where
  text := by
    rw [shape, text, Term.leaf, Labelled.write]
    have bare : spelling.bracketed ⟨word, parameter, false⟩ = false := flat
    rw [bare]
    simp [spelling, marking]
  back := by rw [shape, ← built, Term.leaf, typeOf, typesOf]
  good plainly := by
    rw [shape]
    exact ⟨⟨letters, fits, plain plainly⟩, fun _ => rfl, trivial⟩

structure Member where
  label : ChildLabel
  dataType : DataType
  token : String

def Member.part (coded : Bool) (member : Member) : String :=
  let named := member.label.name ++ nullableMark member.label.nullable ++ ":" ++ member.token
  if coded then member.label.code.repr ++ "=" ++ named else named

theorem Member.part_toList (member : Member) :
    (member.part (unionWords.contains head.word)).toList =
      spelling.label head member.label ++ ':' :: member.token.toList := by
  unfold Member.part spelling
  dsimp only
  cases unionWords.contains head.word <;> simp

variable {family : List Member}

theorem node_reads (shape : term dataType = .node head (family.map fun member => (member.label, term
    member.dataType))) (nested : nestedWords.contains head.word = true) (each : ∀ member ∈ family,
    Reads member.dataType member.token) (text : token.toList = spelling.head head ++ '<' ::
    ((",".intercalate (family.map (Member.part (unionWords.contains head.word)))).toList ++ '>' ::
    spelling.marking head)) (built : build head (family.map fun member => (member.label, normalise
    member.dataType)) = normalise dataType) (plain : plainType dataType = true → GoodHead head ∧ ∀
    member ∈ family, GoodLabel head.word member.label ∧ plainType member.dataType = true) :
    Reads dataType token where
  text := by
    have parts : family.map (String.toList ∘ Member.part (unionWords.contains head.word)) =
        (family.map fun member => (member.label, term member.dataType)).map fun child =>
          spelling.label head child.1 ++ ':' :: Labelled.write spelling child.2 := by
      rw [map_map]
      refine map_congr_left fun member inFamily => ?_
      rw [Function.comp_apply, Member.part_toList, (each member inFamily).text]
      rfl
    have bracketed : spelling.bracketed head = true := nested
    rw [shape, text, Labelled.write, Labelled.writeChildren_eq_intercalate, ← parts,
      String.toList_intercalate, map_map, if_pos bracketed]
    simp
  back := by
    rw [shape, ← built, typeOf]
    congr 1
    clear shape text built plain
    induction family with
    | nil => rfl
    | cons member rest ih =>
      rw [map_cons, map_cons, typesOf, (each member mem_cons_self).back,
        ih (forall_mem_cons.mp each).2]
  good plainly := by
    obtain ⟨goodHead, plainMembers⟩ := plain plainly
    rw [shape]
    refine ⟨goodHead, fun flat => ?_, ?_⟩
    · cases nested.symm.trans flat
    · clear shape text built plain
      induction family with
      | nil => trivial
      | cons member rest ih =>
        obtain ⟨goodLabel, plainMember⟩ := plainMembers member mem_cons_self
        exact ⟨goodLabel, (each member mem_cons_self).good plainMember,
          ih (forall_mem_cons.mp each).2
            (forall_mem_cons.mp plainMembers).2⟩

/-- The children of a struct or a union, with their parts of the token. -/
structure Kin (coded : Bool) (parts : List String) (terms : List (ChildLabel × Term))
    (fields : List (Int × Field)) (plain : Bool) (family : List Member) : Prop where
  each : ∀ member ∈ family, Reads member.dataType member.token
  parts : parts = family.map (Member.part coded)
  terms : terms = family.map fun member => (member.label, term member.dataType)
  fields : fields = family.map fun member =>
    (member.label.code, member.label.field (normalise member.dataType))
  uncoded : coded = false → ∀ member ∈ family, member.label.code = 0
  plain : plain = true → ∀ member ∈ family,
    plainName member.label.name = true ∧ plainType member.dataType = true

theorem Kin.nil : Kin coded [] [] [] true [] where
  each _ inFamily := by cases inFamily
  parts := rfl
  terms := rfl
  fields := rfl
  uncoded _ _ inFamily := by cases inFamily
  plain _ _ inFamily := by cases inFamily

variable {terms : List (ChildLabel × Term)}

theorem Kin.cons {plain : Bool} (kin : Kin coded parts terms fields plain family) (member : Member)
    (reads : Reads member.dataType member.token) (code : coded = false → member.label.code = 0) :
    Kin coded (member.part coded :: parts) ((member.label, term member.dataType) :: terms)
      ((member.label.code, member.label.field (normalise member.dataType)) :: fields)
      (plainName member.label.name && plainType member.dataType && plain) (member :: family) where
  each := forall_mem_cons.mpr ⟨reads, kin.each⟩
  parts := by rw [kin.parts, map_cons]
  terms := by rw [kin.terms, map_cons]
  fields := by rw [kin.fields, map_cons]
  uncoded bare := forall_mem_cons.mpr ⟨code bare, kin.uncoded bare⟩
  plain both := by
    simp only [Bool.and_eq_true] at both
    exact forall_mem_cons.mpr ⟨both.1, kin.plain both.2⟩

variable {field : Field}

theorem anonChild_ok {part : String} (made : anonChild field name = .ok part) :
    ∃ token, typeToken field.dataType = .ok token ∧
      part = name ++ nullableMark field.nullable ++ ":" ++ token := by
  obtain ⟨ownName, dataType, nullable, metadata⟩ := field
  obtain ⟨token, inside, rfl⟩ := exceptMap_eq_ok made
  exact ⟨token, inside, rfl⟩

/-- The names the children have in place of their own are plain. -/
theorem plainName_given :
    plainName "item" = true ∧ plainName "key" = true ∧ plainName "value" = true ∧
      plainName "index" = true ∧ plainName "run_ends" = true ∧ plainName "values" = true := by
  decide

theorem kin_reads {token : String} {keysSorted plain : Bool}
    (kin : Kin coded parts terms fields plain family)
    (shape : term dataType = .node ⟨word, parameter, keysSorted⟩ terms)
    (facts : unionWords.contains word = coded ∧ nestedWords.contains word = true ∧
      word.toList.all isWordChar = true)
    (fits : parameter.ctorIdx = parameterIdx word) (apart : parameter.Plain)
    (text : token.toList = word.toList ++ (parenthesised parameter.text ++ '<' ::
      ((",".intercalate parts).toList ++ '>' :: spelling.marking ⟨word, parameter, keysSorted⟩)))
    (built : build ⟨word, parameter, keysSorted⟩
      (family.map fun member => (member.label, normalise member.dataType)) = normalise dataType)
    (plainly : plainType dataType = true → plain = true) : Reads dataType token := by
  obtain ⟨rfl, nested, letters⟩ := facts
  refine node_reads (shape.trans (congrArg _ kin.terms)) nested kin.each ?_ built fun plain =>
    ⟨⟨letters, fits, apart⟩, fun member inFamily => ?_⟩
  · rw [text, kin.parts]
    simp [spelling]
  · obtain ⟨plainName, plainMember⟩ := kin.plain (plainly plain) member inFamily
    exact ⟨⟨plainName, fun uncoded => kin.uncoded uncoded member inFamily⟩, plainMember⟩

theorem sizeOf_dataType (field : Field) : sizeOf field.dataType < sizeOf field := by
  obtain ⟨name, dataType, nullable, metadata⟩ := field
  simp only [Field.dataType, Field.mk.sizeOf_spec]
  omega

theorem sizeOf_codes {field : Int × Field} (member : field ∈ fields) :
    sizeOf field.2.dataType < sizeOf fields := by
  have inList := sizeOf_lt_of_mem member
  have inField := sizeOf_dataType field.2
  obtain ⟨code, field⟩ := field
  simp only [Prod.mk.sizeOf_spec] at *
  omega

theorem childrenTokens_reads {fields : List Field}
    (each : ∀ field ∈ fields, ∀ token, typeToken field.dataType = .ok token → Reads field.dataType token)
    (made : childrenTokens fields = .ok parts) :
    ∃ family, Kin false parts (fieldTerms fields) ((normaliseFields fields).map (0, ·))
      (plainFields fields) family := by
  induction fields generalizing parts with
  | nil =>
    cases made
    exact ⟨[], .nil⟩
  | cons field rest ih =>
    obtain ⟨part, child, made⟩ := exceptBind_eq_ok made
    obtain ⟨others, behind, made⟩ := exceptBind_eq_ok made
    cases made
    obtain ⟨token, inside, rfl⟩ := anonChild_ok child
    obtain ⟨family, kin⟩ := ih (forall_mem_cons.mp each).2 behind
    have reads := each field mem_cons_self token inside
    obtain ⟨name, inner, nullable, metadata⟩ := field
    rw [fieldTerms, childTerm, normaliseFields, normaliseAs, plainFields, plainField, map_cons]
    exact ⟨_, kin.cons ⟨⟨0, name, nullable⟩, inner, token⟩ reads fun _ => rfl⟩

theorem unionTokens_reads (each : ∀ field ∈ fields, ∀ token, typeToken field.2.dataType = .ok token
    → Reads field.2.dataType token) (made : unionTokens fields = .ok parts) :
    ∃ family, Kin true parts (codeTerms fields) (normaliseCodes fields) (plainCodes fields) family := by
  induction fields generalizing parts with
  | nil =>
    cases made
    exact ⟨[], .nil⟩
  | cons field rest ih =>
    obtain ⟨code, field⟩ := field
    obtain ⟨part, child, made⟩ := exceptBind_eq_ok made
    obtain ⟨others, behind, made⟩ := exceptBind_eq_ok made
    cases made
    obtain ⟨token, inside, rfl⟩ := anonChild_ok child
    obtain ⟨family, kin⟩ := ih (forall_mem_cons.mp each).2 behind
    have reads := each (code, field) mem_cons_self token inside
    obtain ⟨name, inner, nullable, metadata⟩ := field
    rw [codeTerms, childTerm, normaliseCodes, normaliseAs, plainCodes, plainField]
    exact ⟨_, kin.cons ⟨⟨code, name, nullable⟩, inner, token⟩ reads (by rintro ⟨⟩)⟩

/-- Every token is the text of the term of its type. -/
theorem typeToken_reads {dataType : DataType} {token : String}
    (made : typeToken dataType = .ok token) : Reads dataType token := by
  match dataType with
  | .null | .boolean | .int8 | .int16 | .int32 | .int64 | .uint8 | .uint16 | .uint32 | .uint64
  | .float16 | .float32 | .float64 | .utf8 | .largeUtf8 | .utf8View | .binary | .largeBinary
  | .binaryView | .date32 | .date64 | .interval .yearMonth | .interval .dayTime
  | .interval .monthDayNano | .fixedSizeBinary _ | .time32 _ | .time64 _ | .duration _
  | .timestamp _ none | .decimal32 _ _ | .decimal64 _ _ | .decimal128 _ _ | .decimal256 _ _ =>
    cases made
    exact leaf_reads rfl (by decide) (by decide) rfl (by simp [parenthesised, Parameter.text]) rfl
      fun _ => trivial
  | .timestamp unit (some zone) =>
    cases made
    exact leaf_reads rfl (by decide) (by decide) rfl (by simp [parenthesised, Parameter.text]) rfl
      fun plain => plain
  | .list (.mk _ inner nullable _) | .largeList (.mk _ inner nullable _)
  | .listView (.mk _ inner nullable _) | .largeListView (.mk _ inner nullable _)
  | .fixedSizeList (.mk _ inner nullable _) _ =>
    obtain ⟨part, child, rfl⟩ := exceptMap_eq_ok made
    obtain ⟨token, inside, rfl⟩ := anonChild_ok child
    have kin := (@Kin.nil false).cons ⟨⟨0, "item", nullable⟩, inner, token⟩
      (typeToken_reads inside) fun _ => rfl
    exact kin_reads kin rfl (by decide) rfl trivial
      (by simp [Member.part, parenthesised, Parameter.text, marking, spelling,
        Field.nullable])
      rfl fun plain => by simpa [plainType, plainField, plainName_given] using plain
  | .struct fields =>
    obtain ⟨parts, children, rfl⟩ := exceptMap_eq_ok made
    obtain ⟨family, kin⟩ := childrenTokens_reads (fun field member token inside =>
      have := (sizeOf_dataType field).trans (sizeOf_lt_of_mem member)
      typeToken_reads inside) children
    have fields := congrArg (List.map Prod.snd) kin.fields
    simp only [map_map, Function.comp_def, map_id'] at fields
    exact kin_reads kin rfl (by decide) rfl trivial
      (by simp [parenthesised, Parameter.text, marking, spelling])
      (by rw [normalise, fields]; simp [build]) fun plain => plain
  | .map (.mk name (.struct [.mk keyName key keyNullable keyMetadata,
      .mk valueName value valueNullable valueMetadata]) nullable metadata) keysSorted =>
    obtain ⟨keyPart, keyChild, made⟩ := exceptBind_eq_ok made
    obtain ⟨valuePart, valueChild, made⟩ := exceptBind_eq_ok made
    cases made
    obtain ⟨keyToken, keyInside, rfl⟩ := anonChild_ok keyChild
    obtain ⟨valueToken, valueInside, rfl⟩ := anonChild_ok valueChild
    have kin := ((@Kin.nil false).cons ⟨⟨0, "value", valueNullable⟩, value, valueToken⟩
      (typeToken_reads valueInside) fun _ => rfl).cons
        ⟨⟨0, "key", keyNullable⟩, key, keyToken⟩ (typeToken_reads keyInside) fun _ => rfl
    refine kin_reads kin rfl (by decide) rfl trivial ?_ rfl fun plain => by
      simpa [plainType, plainField, plainName_given] using plain
    cases keysSorted <;>
      simp [Member.part, parenthesised, Parameter.text, marking, spelling,
        Field.nullable]
  | .dictionary index value =>
    obtain ⟨indexToken, indexInside, made⟩ := exceptBind_eq_ok made
    obtain ⟨valueToken, valueInside, made⟩ := exceptBind_eq_ok made
    cases made
    have kin := ((@Kin.nil false).cons ⟨⟨0, "value", false⟩, value, valueToken⟩
      (typeToken_reads valueInside) fun _ => rfl).cons
        ⟨⟨0, "index", false⟩, index, indexToken⟩ (typeToken_reads indexInside) fun _ => rfl
    exact kin_reads kin rfl (by decide) rfl trivial
      (by simp [Member.part, nullableMark, parenthesised, Parameter.text,
        marking, spelling])
      rfl fun plain => by simpa [plainType, plainField, plainName_given] using plain
  | .runEndEncoded (.mk runEndsName runEnds runEndsNullable runEndsMetadata)
      (.mk valuesName values valuesNullable valuesMetadata) =>
    obtain ⟨runEndsToken, runEndsInside, made⟩ := exceptBind_eq_ok made
    obtain ⟨valuesToken, valuesInside, made⟩ := exceptBind_eq_ok made
    cases made
    have kin := ((@Kin.nil false).cons ⟨⟨0, "values", false⟩, values, valuesToken⟩
      (typeToken_reads valuesInside) fun _ => rfl).cons
        ⟨⟨0, "run_ends", false⟩, runEnds, runEndsToken⟩ (typeToken_reads runEndsInside) fun _ => rfl
    exact kin_reads kin rfl (by decide) rfl trivial
      (by simp [Member.part, nullableMark, parenthesised, Parameter.text,
        marking, spelling])
      rfl fun plain => by simpa [plainType, plainField, plainName_given] using plain
  | .union fields .sparse | .union fields .dense =>
    obtain ⟨parts, children, rfl⟩ := exceptMap_eq_ok made
    obtain ⟨family, kin⟩ := unionTokens_reads (fun field member token inside =>
      have := sizeOf_codes member
      typeToken_reads inside) children
    exact kin_reads kin rfl (by decide) rfl trivial
      (by simp [parenthesised, Parameter.text, marking, spelling])
      (by rw [normalise, kin.fields]; simp [build]) fun plain => plain
  | .map (.mk _ (.struct []) _ _) _ | .map (.mk _ (.struct [_]) _ _) _ => cases made
termination_by sizeOf dataType

/-- A token tells the type up to the normalised parts, if what is carried verbatim is plain. -/
theorem normalise_eq_of_typeToken {first second : DataType}
    (made : typeToken first = .ok token) (also : typeToken second = .ok token)
    (plain : plainType first = true) (alsoPlain : plainType second = true) :
    normalise first = normalise second := by
  have reads := typeToken_reads made
  have alsoReads := typeToken_reads also
  have same : Labelled.write spelling (term first) ++ [] =
      Labelled.write spelling (term second) ++ [] := by
    rw [← reads.text, ← alsoReads.text]
  obtain ⟨terms, -⟩ := Labelled.write_append_inj spelling_readable (reads.good plain)
    (alsoReads.good alsoPlain) .nil .nil same
  rw [← reads.back, terms, alsoReads.back]

end VgiRpc.Reflection
