/-!
Sets of characters as unions of code point spans. The spans of a set may overlap and stand in
any order; only the complement has to sort them. Main statement: `contains_compl`.
-/
namespace TableAsm

/-- The code points from `first` to `last`, both included. -/
structure Span where
  first : Nat
  last : Nat
deriving DecidableEq, Repr, Inhabited

namespace Span

def covers (s : Span) (n : Nat) : Bool := decide (s.first ≤ n) && decide (n ≤ s.last)

/-- Puts a span before the first one of a list that does not start below it. -/
def insertSorted (s : Span) : List Span → List Span
  | [] => [s]
  | t :: ts => if s.first ≤ t.first then s :: t :: ts else t :: insertSorted s ts

def sort (spans : List Span) : List Span := spans.foldr insertSorted []

/-- The greatest code point. -/
def lastCodePoint : Nat := 0x10FFFF

/-- What sorted spans leave uncovered from `next` on. -/
def gaps (next : Nat) : List Span → List Span
  | [] => if next ≤ lastCodePoint then [⟨next, lastCodePoint⟩] else []
  | s :: rest =>
    let after := gaps (max next (s.last + 1)) rest
    if next < s.first then ⟨next, s.first - 1⟩ :: after else after

theorem any_insertSorted (p : Span → Bool) (s : Span) (ts : List Span) :
    (insertSorted s ts).any p = (p s || ts.any p) := by
  induction ts with
  | nil => simp [insertSorted]
  | cons t ts ih =>
    unfold insertSorted
    split
    · simp
    · rw [List.any_cons, ih, List.any_cons, Bool.or_left_comm]

theorem any_sort (p : Span → Bool) (spans : List Span) : (sort spans).any p = spans.any p := by
  induction spans with
  | nil => rfl
  | cons s rest ih =>
    show (insertSorted s (sort rest)).any p = _
    rw [any_insertSorted, ih, List.any_cons]

theorem mem_insertSorted {s a : Span} {ts : List Span} :
    a ∈ insertSorted s ts ↔ a = s ∨ a ∈ ts := by
  induction ts with
  | nil => simp [insertSorted]
  | cons t ts ih =>
    unfold insertSorted
    split
    · simp
    · rw [List.mem_cons, ih, List.mem_cons, or_left_comm]

theorem insertSorted_pairwise (s : Span) {ts : List Span}
    (h : ts.Pairwise (·.first ≤ ·.first)) :
    (insertSorted s ts).Pairwise (·.first ≤ ·.first) := by
  induction ts with
  | nil => simp [insertSorted]
  | cons t ts ih =>
    have ht := List.pairwise_cons.mp h
    unfold insertSorted
    split
    · rename_i le
      rw [List.pairwise_cons]
      refine ⟨fun a ha => ?_, h⟩
      rcases List.mem_cons.mp ha with rfl | ha
      · exact le
      · exact Nat.le_trans le (ht.1 a ha)
    · rename_i not_le
      rw [List.pairwise_cons]
      refine ⟨fun a ha => ?_, ih ht.2⟩
      rcases mem_insertSorted.mp ha with rfl | ha
      · exact Nat.le_of_lt (Nat.lt_of_not_le not_le)
      · exact ht.1 a ha

theorem sort_pairwise (spans : List Span) : (sort spans).Pairwise (·.first ≤ ·.first) := by
  induction spans with
  | nil => exact List.Pairwise.nil
  | cons s rest ih => exact insertSorted_pairwise s ih

theorem any_gaps {spans : List Span} (sorted : spans.Pairwise (·.first ≤ ·.first))
    (next n : Nat) (hn : n ≤ lastCodePoint) :
    (gaps next spans).any (·.covers n) = (decide (next ≤ n) && !spans.any (·.covers n)) := by
  induction spans generalizing next with
  | nil =>
    unfold gaps
    split <;> simp [covers] <;> omega
  | cons s rest ih =>
    have hs := List.pairwise_cons.mp sorted
    have below : n < s.first → rest.any (·.covers n) = false := by
      intro lt
      rw [List.any_eq_false]
      intro t ht
      have := hs.1 t ht
      simp [covers]
      omega
    have tail := ih hs.2 (max next (s.last + 1))
    show (gaps next (s :: rest)).any _ =
      (decide (next ≤ n) && !(s.covers n || rest.any (·.covers n)))
    generalize rest.any (·.covers n) = covered at tail below ⊢
    unfold gaps
    simp only
    split
    · rw [List.any_cons, tail, Bool.eq_iff_iff]
      cases covered <;> simp [covers] at below ⊢ <;> omega
    · rw [tail, Bool.eq_iff_iff]
      cases covered <;> simp [covers] at below ⊢ <;> omega

end Span

structure CharSet where
  spans : List Span
deriving Repr, Inhabited

/-- Sets are equal if their spans are; a set is not compared with itself span by span. -/
instance : DecidableEq CharSet := fun s t =>
  withPtrEqDecEq s t fun _ =>
    decidable_of_iff (s.spans = t.spans) ⟨fun h => by cases s; cases t; simp_all, congrArg _⟩

namespace CharSet

def contains (s : CharSet) (c : Char) : Bool := s.spans.any (·.covers c.toNat)

def empty : CharSet := ⟨[]⟩
def all : CharSet := ⟨[⟨0, Span.lastCodePoint⟩]⟩
def ofRange (first last : Char) : CharSet := ⟨[⟨first.toNat, last.toNat⟩]⟩
def singleton (c : Char) : CharSet := ofRange c c
def ofList (cs : List Char) : CharSet := ⟨cs.map fun c => ⟨c.toNat, c.toNat⟩⟩

def union (s t : CharSet) : CharSet := ⟨s.spans ++ t.spans⟩

/-- The characters that a set leaves out. -/
def compl (s : CharSet) : CharSet := ⟨Span.gaps 0 (Span.sort s.spans)⟩

/-- The same characters in the fewest spans. -/
def merge (s : CharSet) : CharSet := s.compl.compl

def inter (s t : CharSet) : CharSet := (s.compl.union t.compl).compl
def diff (s t : CharSet) : CharSet := s.inter t.compl
def symmDiff (s t : CharSet) : CharSet := (s.diff t).union (t.diff s)

@[simp] theorem contains_empty (c : Char) : empty.contains c = false := rfl

@[simp] theorem contains_union (s t : CharSet) (c : Char) :
    (s.union t).contains c = (s.contains c || t.contains c) := List.any_append

@[simp] theorem contains_compl (s : CharSet) (c : Char) :
    s.compl.contains c = !s.contains c := by
  have hc : c.toNat ≤ Span.lastCodePoint := by
    have := c.valid
    simp only [UInt32.isValidChar, Nat.isValidChar] at this
    simp only [Char.toNat, Span.lastCodePoint]
    omega
  simp [contains, compl, Span.any_gaps (Span.sort_pairwise _) 0 _ hc, Span.any_sort]

@[simp] theorem contains_merge (s : CharSet) (c : Char) : s.merge.contains c = s.contains c := by
  simp [merge]

@[simp] theorem contains_inter (s t : CharSet) (c : Char) :
    (s.inter t).contains c = (s.contains c && t.contains c) := by
  simp [inter]

@[simp] theorem contains_diff (s t : CharSet) (c : Char) :
    (s.diff t).contains c = (s.contains c && !t.contains c) := by
  simp [diff]

end CharSet

end TableAsm
