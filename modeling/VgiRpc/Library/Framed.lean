import VgiRpc.Library.LittleEndian
import VgiRpc.Library.Separated

/-!
# Framed fields and blocks of rows

A list of byte strings is written with the length of each in front of it, and can be read
back as long as every length fits its word.  Over such a list stand blocks: a key, a mark,
and rows of one width that begin with the key again.  Neither the number of blocks nor the
number of rows is written down; a block ends where the key does not come again, or where
too little is left for a row.
-/

namespace VgiRpc.Library.Framed

open LittleEndian List

def frame (width : Nat) (field : List UInt8) : List UInt8 :=
  (toLe width field.length).reverse ++ field

/-- A code no word of which begins another is uniquely read. -/
theorem flatMap_inj {α β : Type} {code : α → List β} {first second : List α} (nonempty : ∀ symbol,
    code symbol ≠ []) (apart : ∀ one ∈ first, ∀ two ∈ second, ∀ restOne restTwo, code one ++ restOne
    = code two ++ restTwo → one = two ∧ restOne = restTwo) (same : first.flatMap code =
    second.flatMap code) : first = second := by
  refine (flatMap_append_inj apart (fun two _ _ => ?_) (fun one _ _ => ?_) (congrArg (· ++ []) same)).1
  · simp [nonempty]
  · simp [nonempty]

theorem frames_inj {width : Nat} {first second : List (List UInt8)}
    (firstFits : ∀ field ∈ first, field.length < 256 ^ width)
    (secondFits : ∀ field ∈ second, field.length < 256 ^ width)
    (wide : 0 < width)
    (same : first.flatMap (frame width) = second.flatMap (frame width)) : first = second := by
  have nonempty : ∀ field : List UInt8, frame width field ≠ [] := by
    intro field empty
    have length := congrArg List.length empty
    rw [frame, length_append, length_reverse, toLe_length, length_nil] at length
    omega
  refine flatMap_inj nonempty (fun one member two among restOne restTwo begins => ?_) same
  rw [frame, frame, append_assoc, append_assoc] at begins
  obtain ⟨lengths, contents⟩ := append_inj begins (by simp)
  exact append_inj contents
    (toLe_injective (firstFits one member) (secondFits two among) (reverse_injective lengths))

variable {α : Type}

/-- Rows of one width under a key, each of which begins with the key. -/
@[ext]
structure Block (α : Type) (width : Nat) where
  key : α
  mark : α
  rows : List (List α)
  wide : ∀ row ∈ rows, row.length = width
  keyed : ∀ row ∈ rows, row.head? = some key

namespace Block

variable {width : Nat} (block : Block α width)

def fields : List α := block.key :: block.mark :: block.rows.flatten

def Ends (width : Nat) (key : α) (rest : List α) : Prop :=
  rest.head? = some key → rest.length < width

/-- Rows under a key end where what stands behind them begins. -/
theorem rows_append_inj {key : α} {first second : List (List α)} {restOne restTwo : List α}
    (firstWide : ∀ row ∈ first, row.length = width) (firstKeyed : ∀ row ∈ first, row.head? = some
    key) (secondWide : ∀ row ∈ second, row.length = width) (secondKeyed : ∀ row ∈ second, row.head?
    = some key) (endsOne : Ends width key restOne) (endsTwo : Ends width key restTwo) (same :
    first.flatten ++ restOne = second.flatten ++ restTwo) :
    first = second ∧ restOne = restTwo := by
  -- A row never is what ends the rows: it begins with the key and is not too short.
  have stops {rows : List (List α)} {rest : List α} (wide : ∀ row ∈ rows, row.length = width)
      (keyed : ∀ row ∈ rows, row.head? = some key) (ends : Ends width key rest) :
      ∀ row ∈ rows, ∀ more, rest ≠ row ++ more := by
    rintro row member more rfl
    have short := ends (by rw [head?_append, keyed row member]; rfl)
    rw [length_append, wide row member] at short
    omega
  refine flatMap_append_inj (fun row member other among _ _ equal => append_inj equal ?_)
    (stops secondWide secondKeyed endsOne) (stops firstWide firstKeyed endsTwo) ?_
  · rw [firstWide row member, secondWide other among]
  · simpa using same

theorem length_fields : block.fields.length = 2 + block.rows.length * width := by
  have rows : block.rows.flatten.length = block.rows.length * width := by
    rw [length_flatten, map_congr_left block.wide]
    simp
  rw [fields, length_cons, length_cons, rows]
  omega

/-- Blocks of distinct keys, and a trailer of three fields or none behind them. -/
theorem blocks_append_inj {first second : List (Block α width)} {trailerOne trailerTwo : List α}
    (wide : 3 < width) (firstKeys : (first.map Block.key).Nodup) (secondKeys : (second.map
    Block.key).Nodup) (shortOne : trailerOne.length = 0 ∨ trailerOne.length = 3) (shortTwo :
    trailerTwo.length = 0 ∨ trailerTwo.length = 3) (same : first.flatMap fields ++ trailerOne =
    second.flatMap fields ++ trailerTwo) :
    first = second ∧ trailerOne = trailerTwo := by
  -- No trailer is as long as a block with something behind it.
  have odd : ∀ {block : Block α width} {blocks : List (Block α width)} {trailer other : List α},
      (trailer.length = 0 ∨ trailer.length = 3) → (other.length = 0 ∨ other.length = 3) →
      trailer ≠ (block :: blocks).flatMap fields ++ other := by
    intro block blocks trailer other short end_ equal
    have lengths := congrArg List.length equal
    have more : (blocks.flatMap fields).length = 0 ∨ 2 ≤ (blocks.flatMap fields).length := by
      cases blocks with
      | nil => exact .inl rfl
      | cons next rest =>
        rw [flatMap_cons, length_append, length_fields]
        omega
    rw [flatMap_cons, append_assoc, length_append, length_append, length_fields] at lengths
    have rows : block.rows.length * width = 0 ∨ 3 < block.rows.length * width := by
      cases count : block.rows.length with
      | zero => exact .inl (Nat.zero_mul _)
      | succ more =>
        rw [Nat.succ_mul]
        omega
    omega
  have ends : ∀ {key : α} {blocks : List (Block α width)} {trailer : List α},
      key ∉ blocks.map Block.key → (trailer.length = 0 ∨ trailer.length = 3) →
      Ends width key (blocks.flatMap fields ++ trailer) := by
    intro key blocks trailer fresh short head
    cases blocks with
    | nil =>
      rw [flatMap_nil, nil_append]
      omega
    | cons block rest =>
      rw [flatMap_cons, fields] at head
      exact absurd (by simpa using head) (ne_of_not_mem_cons fresh).symm
  induction first generalizing second with
  | nil =>
    cases second with
    | nil => exact ⟨rfl, same⟩
    | cons block rest => exact absurd same (odd shortOne shortTwo)
  | cons block rest ih =>
    cases second with
    | nil => exact absurd same.symm (odd shortTwo shortOne)
    | cons other others =>
      rw [map_cons, nodup_cons] at firstKeys secondKeys
      rw [flatMap_cons, flatMap_cons, fields, fields] at same
      simp only [cons_append, append_assoc, List.cons.injEq] at same
      obtain ⟨keys, marks, later⟩ := same
      obtain ⟨rows, tails⟩ := rows_append_inj block.wide block.keyed other.wide
        (by rw [keys]; exact other.keyed) (ends firstKeys.1 shortOne)
        (ends (by rw [keys]; exact secondKeys.1) shortTwo) later
      obtain ⟨blocks, trailers⟩ := ih firstKeys.2 secondKeys.2 tails
      exact ⟨by rw [Block.ext keys marks rows, blocks], trailers⟩

end Block

end VgiRpc.Library.Framed
