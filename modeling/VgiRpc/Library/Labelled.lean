import VgiRpc.Library.Separated

/-!
# Terms with labelled children

A term is written as its head, its children between angle brackets, each behind its label
and a colon and with a comma to the next, and perhaps a mark behind the brackets.  The text
of a term determines the term as soon as no label holds a colon or a comma.  A child may be
called like the mark of the term in front of it: the colon behind its label tells them apart.
-/

namespace VgiRpc.Library

open List

inductive Labelled (H L : Type) where
  | node (head : H) (children : List (L × Labelled H L))

namespace Labelled

/-- How heads and labels are written, which heads have brackets, and which have the mark. -/
structure Spelling (H L : Type) where
  head : H → List Char
  bracketed : H → Bool
  label : H → L → List Char
  marked : H → Bool
  mark : List Char

variable {H L : Type} (spelling : Spelling H L)

def Spelling.marking (head : H) : List Char :=
  if spelling.marked head then ',' :: spelling.mark else []

mutual

def write : Labelled H L → List Char
  | .node head children =>
    spelling.head head ++
      ((if spelling.bracketed head then '<' :: (writeChildren (spelling.label head) children ++ ['>'])
        else []) ++ spelling.marking head)

def writeChildren (label : L → List Char) : List (L × Labelled H L) → List Char
  | [] => []
  | child :: rest => label child.1 ++ ':' :: (write child.2 ++ writeBehind label rest)

def writeBehind (label : L → List Char) : List (L × Labelled H L) → List Char
  | [] => []
  | child :: rest => ',' :: (label child.1 ++ ':' :: (write child.2 ++ writeBehind label rest))

end

theorem writeChildren_eq_intercalate (label : L → List Char) (children : List (L × Labelled H L)) :
    writeChildren spelling label children =
      [','].intercalate (children.map fun child => label child.1 ++ ':' :: write spelling child.2) := by
  induction children with
  | nil => rfl
  | cons child rest ih =>
    cases rest with
    | nil => simp [writeChildren, writeBehind]
    | cons next others =>
      have behind : writeBehind spelling label (next :: others) =
          ',' :: writeChildren spelling label (next :: others) := rfl
      rw [writeChildren, behind, ih]
      simp [intercalate_cons_cons]

def Stops (text : List Char) : Prop := ∀ char ∈ text.head?, char = '<' ∨ char = '>' ∨ char = ','

/-- What can stand behind a term: the end, the end of the children it is one of, or the next
of them. -/
structure Closes (text : List Char) : Prop where
  stops : ∀ char ∈ text.head?, char = '>' ∨ char = ','
  comma_first : ∀ first rest, text = first ++ ':' :: rest → ',' ∈ first
  next_child : ∀ others, text = ',' :: others → ∃ first rest, others = first ++ ':' :: rest ∧ ',' ∉ first

theorem Closes.nil : Closes [] where
  stops _ member := by cases member
  comma_first first rest same := by
    have := congrArg List.length same
    simp at this
  next_child others same := by cases same

theorem Closes.comma {label rest : List Char} (plain : ',' ∉ label) :
    Closes (',' :: (label ++ ':' :: rest)) where
  stops char member := .inr (Option.some.inj member).symm
  comma_first first others same := by
    cases first with
    | nil => cases same
    | cons char first =>
      rw [← (List.cons.inj same).1]
      exact mem_cons_self
  next_child others same := ⟨label, rest, (List.cons.inj same).2.symm, plain⟩

variable {head : H} {text : List Char}

theorem marking_comma_first {first rest : List Char} (closes : Closes text)
    (same : spelling.marking head ++ text = first ++ ':' :: rest) : ',' ∈ first := by
  unfold Spelling.marking at same
  split at same
  · cases first with
    | nil => cases same
    | cons char first =>
      rw [← (List.cons.inj same).1]
      exact mem_cons_self
  · exact closes.comma_first first rest same

theorem Closes.bracket (closes : Closes text) : Closes ('>' :: (spelling.marking head ++ text)) where
  stops char member := .inl (Option.some.inj member).symm
  comma_first first rest same := by
    cases first with
    | nil => cases same
    | cons char first =>
      exact mem_cons_of_mem _
        (marking_comma_first spelling closes (List.cons.inj same).2)
  next_child others same := by cases same

theorem Closes.marking_stops (closes : Closes text) : Stops (spelling.marking head ++ text) := by
  intro char member
  unfold Spelling.marking at member
  split at member
  · exact .inr (.inr (Option.some.inj member).symm)
  · exact .inr (closes.stops char member)

/-- What makes the heads and labels readable, for the heads and labels in use. -/
structure Spelling.Readable (goodHead : H → Prop) (goodLabel : H → L → Prop) : Prop where
  head : ∀ {first second rest more}, goodHead first → goodHead second → Stops rest → Stops more →
    spelling.head first ++ rest = spelling.head second ++ more →
      spelling.head first = spelling.head second ∧ rest = more
  alike : ∀ {first second}, goodHead first → goodHead second →
    spelling.head first = spelling.head second →
      spelling.bracketed first = spelling.bracketed second ∧
      spelling.label first = spelling.label second ∧ goodLabel first = goodLabel second ∧
      (spelling.marked first = spelling.marked second → first = second)
  label : ∀ {head first second}, goodLabel head first → goodLabel head second →
    spelling.label head first = spelling.label head second → first = second
  plain : ∀ {head label}, goodLabel head label →
    ':' ∉ spelling.label head label ∧ ',' ∉ spelling.label head label
  mark : ':' ∉ spelling.mark

variable (goodHead : H → Prop) (goodLabel : H → L → Prop)

mutual

/-- The heads and labels are in use, and only heads with brackets have children. -/
def Good : Labelled H L → Prop
  | .node head children =>
    goodHead head ∧ (spelling.bracketed head = false → children = []) ∧
      GoodChildren (goodLabel head) children

def GoodChildren (good : L → Prop) : List (L × Labelled H L) → Prop
  | [] => True
  | child :: rest => good child.1 ∧ Good child.2 ∧ GoodChildren good rest

end

variable {spelling goodHead goodLabel}

section

variable (readable : spelling.Readable goodHead goodLabel)
include readable

theorem Spelling.Readable.not_mark
    (closes : Closes text) : ¬ Closes (',' :: (spelling.mark ++ text)) := by
  intro next
  obtain ⟨first, rest, same, plain⟩ := next.next_child _ rfl
  obtain ⟨behind, rfl, ends⟩ | ⟨behind, marks, ends⟩ := append_eq_append_iff.mp same
  · exact plain (mem_append_right _ (closes.comma_first _ _ ends))
  · cases behind with
    | nil =>
      have comma := closes.comma_first [] rest ends.symm
      cases comma
    | cons char behind =>
      obtain ⟨rfl, -⟩ := List.cons.inj ends
      exact readable.mark (by rw [marks]; simp)

theorem Spelling.Readable.marking_inj
    {first second : H} {rest more : List Char} (closes : Closes rest) (also : Closes more)
    (same : spelling.marking first ++ rest = spelling.marking second ++ more) :
    spelling.marked first = spelling.marked second ∧ rest = more := by
  unfold Spelling.marking at same
  cases marked : spelling.marked first <;> cases other : spelling.marked second <;>
  rw [marked, other] at same <;>
  simp only [Bool.false_eq_true, if_false, if_true, nil_append, cons_append,
    List.cons.injEq, true_and, append_cancel_left_eq] at same
  · exact ⟨rfl, same⟩
  · rw [same] at closes
    exact absurd closes (readable.not_mark also)
  · rw [← same] at also
    exact absurd also (readable.not_mark closes)
  · exact ⟨rfl, same⟩

theorem closes_behind {rest : List (L × Labelled H L)} (good : GoodChildren spelling goodHead
    goodLabel (goodLabel head) rest) (closes : Closes ('>' :: text)) :
    Closes (writeBehind spelling (spelling.label head) rest ++ '>' :: text) := by
  cases rest with
  | nil => exact closes
  | cons child rest =>
    simp only [writeBehind, cons_append, append_assoc]
    exact .comma (readable.plain good.1).2

end

mutual

/-- A term is told from what stands behind it. -/
theorem write_append_inj (readable : spelling.Readable goodHead goodLabel) {first second : Labelled
    H L} (good : Good spelling goodHead goodLabel first) (also : Good spelling goodHead goodLabel
    second) {rest more : List Char} (closes : Closes rest) (alsoCloses : Closes more) (same : write
    spelling first ++ rest = write spelling second ++ more) :
    first = second ∧ rest = more := by
  match first, second with
  | .node head children, .node other others =>
    obtain ⟨goodHead, bare, goodChildren⟩ := good
    obtain ⟨alsoHead, alsoBare, alsoChildren⟩ := also
    simp only [write, append_assoc] at same
    obtain ⟨heads, behind⟩ := readable.head goodHead alsoHead
      (by split
          · exact fun char member => .inl (Option.some.inj member).symm
          · exact closes.marking_stops spelling)
      (by split
          · exact fun char member => .inl (Option.some.inj member).symm
          · exact alsoCloses.marking_stops spelling) same
    obtain ⟨brackets, labels, goodLabels, marked⟩ := readable.alike goodHead alsoHead heads
    rw [← brackets, ← labels] at behind
    rw [← brackets] at alsoBare
    rw [← goodLabels] at alsoChildren
    cases bracketed : spelling.bracketed head with
    | false =>
      rw [bracketed] at behind
      obtain ⟨marks, tail⟩ := readable.marking_inj closes alsoCloses behind
      rw [marked marks, bare bracketed, alsoBare bracketed]
      exact ⟨rfl, tail⟩
    | true =>
      simp only [bracketed, if_true, cons_append, append_assoc, nil_append,
        List.cons.injEq, true_and] at behind
      obtain ⟨rfl, marks⟩ := writeChildren_append_inj readable goodChildren alsoChildren
        (closes.bracket spelling) (alsoCloses.bracket spelling) behind
      obtain ⟨marks, tail⟩ := readable.marking_inj closes alsoCloses marks
      rw [marked marks]
      exact ⟨rfl, tail⟩

theorem writeChildren_append_inj (readable : spelling.Readable goodHead goodLabel) {head : H} {first
    second : List (L × Labelled H L)} (good : GoodChildren spelling goodHead goodLabel (goodLabel
    head) first) (also : GoodChildren spelling goodHead goodLabel (goodLabel head) second) {rest
    more : List Char} (closes : Closes ('>' :: rest)) (alsoCloses : Closes ('>' :: more)) (same :
    writeChildren spelling (spelling.label head) first ++ '>' :: rest = writeChildren spelling
    (spelling.label head) second ++ '>' :: more) :
    first = second ∧ rest = more := by
  match first, second with
  | [], [] => exact ⟨rfl, (List.cons.inj same).2⟩
  | [], other :: others =>
    simp only [writeChildren, append_assoc, cons_append] at same
    exact absurd (closes.comma_first _ _ same) (readable.plain also.1).2
  | child :: children, [] =>
    simp only [writeChildren, append_assoc, cons_append] at same
    exact absurd (alsoCloses.comma_first _ _ same.symm) (readable.plain good.1).2
  | child :: children, other :: others =>
    simp only [writeChildren, append_assoc, cons_append] at same
    obtain ⟨labels, behind⟩ :=
      append_cons_inj (readable.plain good.1).1 (readable.plain also.1).1 same
    obtain ⟨terms, behind⟩ := write_append_inj readable good.2.1 also.2.1
      (closes_behind readable good.2.2 closes) (closes_behind readable also.2.2 alsoCloses) behind
    rw [Prod.ext (readable.label good.1 also.1 labels) terms]
    -- Behind a child stands the end, or a comma and the children that are left.
    match children, others with
    | [], [] => exact ⟨rfl, (List.cons.inj behind).2⟩
    | [], _ :: _ | _ :: _, [] => cases (List.cons.inj behind).1
    | _ :: _, _ :: _ =>
      obtain ⟨same, tail⟩ := writeChildren_append_inj readable good.2.2 also.2.2 closes alsoCloses
        (List.cons.inj behind).2
      exact ⟨by rw [same], tail⟩

end

end Labelled

end VgiRpc.Library
