import TableAsm.Lexicon.Basic
import TableAsm.Proofs.Pattern.Language

/-! Characters of the texts that a pattern stands for: those that occur in none of them, and those
that one can begin with. Both are read off the pattern. -/
namespace TableAsm

namespace Pattern

/-- Whether a character is in no text. -/
def avoids (c : Char) : Pattern → Bool
  | empty => true
  | text cs => !cs.contains c
  | chars s => !s.contains c
  | anchor _ => true
  | times _ _ p => p.avoids c
  | group _ p => p.avoids c
  | seq p q => p.avoids c && q.avoids c
  | alt p q => p.avoids c && q.avoids c

/-- Whether all texts begin with a character outside a set. -/
def beginsOutside (s : CharSet) : Pattern → Bool
  | empty => false
  | text cs => cs.head?.any (!s.contains ·)
  | chars t => (t.inter s).spans.isEmpty
  | anchor _ => false
  | times least _ p => decide (0 < least) && p.beginsOutside s
  | group _ p => p.beginsOutside s
  | seq p _ => p.beginsOutside s
  | alt p q => p.beginsOutside s && q.beginsOutside s

variable {p : Pattern} {w : List Char}

theorem not_mem_of_matches {c : Char} (h : p.avoids c = true) (found : p.Matches w) : c ∉ w := by
  induction p generalizing w with
  | empty =>
    obtain rfl : w = [] := found
    exact List.not_mem_nil
  | text cs =>
    obtain rfl : w = cs := found
    simpa [avoids] using h
  | chars s =>
    obtain ⟨d, rfl, inside⟩ := found
    rw [List.mem_singleton]
    rintro rfl
    simp [avoids, inside] at h
  | anchor a =>
    obtain ⟨-, rfl⟩ := found
    exact List.not_mem_nil
  | times least most p ih =>
    obtain ⟨ws, rfl, each, -, -⟩ := found
    intro mem
    obtain ⟨x, turn, mem⟩ := List.mem_flatten.mp mem
    exact ih h (each x turn) mem
  | group n p ih => exact ih h found
  | seq p q ihp ihq =>
    obtain ⟨u, v, rfl, first, second⟩ := found
    obtain ⟨inP, inQ⟩ := Bool.and_eq_true_iff.mp h
    simp [ihp inP first, ihq inQ second]
  | alt p q ihp ihq =>
    obtain ⟨inP, inQ⟩ := Bool.and_eq_true_iff.mp h
    exact found.elim (ihp inP) (ihq inQ)

theorem head_of_matches {s : CharSet} (h : p.beginsOutside s = true) (found : p.Matches w) :
    ∃ c rest, w = c :: rest ∧ s.contains c = false := by
  induction p generalizing w with
  | empty => cases h
  | text cs =>
    obtain rfl : w = cs := found
    cases w with
    | nil => cases h
    | cons c rest => exact ⟨c, rest, rfl, by simpa [beginsOutside] using h⟩
  | chars t =>
    obtain ⟨c, rfl, inside⟩ := found
    refine ⟨c, [], rfl, ?_⟩
    have none : (t.inter s).contains c = false := by
      rw [CharSet.contains, List.isEmpty_iff.mp h]
      rfl
    simpa [inside] using none
  | anchor a => cases h
  | times least most p ih =>
    obtain ⟨ws, rfl, each, enough, -⟩ := found
    obtain ⟨pos, h⟩ := Bool.and_eq_true_iff.mp h
    rcases enough with enough | empty
    · cases ws with
      | nil =>
        have := of_decide_eq_true pos
        simp at enough
        omega
      | cons x ws =>
        obtain ⟨c, rest, rfl, outside⟩ := ih h (each x List.mem_cons_self)
        exact ⟨c, rest ++ ws.flatten, rfl, outside⟩
    · obtain ⟨c, rest, eq, -⟩ := ih h empty
      cases eq
  | group n p ih => exact ih h found
  | seq p q ihp _ =>
    obtain ⟨u, v, rfl, first, -⟩ := found
    obtain ⟨c, rest, rfl, outside⟩ := ihp h first
    exact ⟨c, rest ++ v, rfl, outside⟩
  | alt p q ihp ihq =>
    obtain ⟨inP, inQ⟩ := Bool.and_eq_true_iff.mp h
    exact found.elim (ihp inP) (ihq inQ)

end Pattern

namespace Matcher

/-- Whether a condition holds of the text of a matcher, or of its pattern, which is a whole one. -/
def tells (ofText : List Char → Bool) (ofPattern : Pattern → Bool) : Matcher → Bool
  | .literal text => ofText text
  | .pattern (.seq (.anchor .textStart) q) => q.isSealed && ofPattern q
  | .pattern _ => false

def avoids (c : Char) : Matcher → Bool := tells (!·.contains c) (·.avoids c)

def beginsOutside (s : CharSet) : Matcher → Bool :=
  tells (·.head?.any (!s.contains ·)) (·.beginsOutside s)

variable {m : Matcher} {w : List Char}

theorem not_mem_of_accepts {c : Char} (h : m.avoids c = true) (accepted : m.accepts w = true) :
    c ∉ w := by
  unfold avoids tells at h
  split at h
  · simp only [accepts_literal, decide_eq_true_eq] at accepted
    subst accepted
    simpa using h
  · rename_i q
    obtain ⟨closed, h⟩ := Bool.and_eq_true_iff.mp h
    rw [accepts_pattern] at accepted
    exact Pattern.not_mem_of_matches h ((Pattern.foundIn_whole closed w).mp accepted)
  · cases h

theorem head_of_accepts {s : CharSet} (h : m.beginsOutside s = true)
    (accepted : m.accepts w = true) : ∃ c rest, w = c :: rest ∧ s.contains c = false := by
  unfold beginsOutside tells at h
  split at h
  · simp only [accepts_literal, decide_eq_true_eq] at accepted
    subst accepted
    cases w with
    | nil => cases h
    | cons c rest => exact ⟨c, rest, rfl, by simpa using h⟩
  · rename_i q
    obtain ⟨closed, h⟩ := Bool.and_eq_true_iff.mp h
    rw [accepts_pattern] at accepted
    exact Pattern.head_of_matches h ((Pattern.foundIn_whole closed w).mp accepted)
  · cases h

end Matcher

end TableAsm
