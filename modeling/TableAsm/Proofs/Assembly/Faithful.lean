import TableAsm.Proofs.Assembly.Conservation
import TableAsm.Proofs.Language.Literals

/-! Grammars that suit the actions. If each rule of a block names the line before the block behind
it, the lines of a tree stand in their order. The grammar of the language has such rules and leaves
nothing behind, so its programs are the lines of their trees whatever the lexicon is. -/
namespace TableAsm

/-- A rule that has a line in a block names it before any block. -/
def Rule.LineFirst (r : Rule) : Prop :=
  r.lhs = "start" → "line" ∈ r.rhs → "start" ∉ r.rhs.takeWhile (· ≠ "line")

instance (r : Rule) : Decidable r.LineFirst := inferInstanceAs (Decidable (_ → _))

namespace Tree

variable {t : Tree} {rules : List Rule} {id c d : NodeId}

/-- If one symbol comes before any of another, so do the first children that have them. -/
theorem child?_before {symbol later : String} (differ : symbol ≠ later)
    (first : t.child? id symbol 0 = some c) (second : t.child? id later 0 = some d)
    (order : later ∉ ((t.children id).map t.symbol).takeWhile (· ≠ symbol)) :
    ∃ before between after, t.children id = before ++ c :: (between ++ d :: after) := by
  unfold child? at first second
  generalize t.children id = ids at first second order
  induction ids with
  | nil => cases first
  | cons x ids ih =>
    rw [List.filter_cons] at first second
    by_cases hit : t.symbol x = symbol
    · rw [if_pos (beq_iff_eq.mpr hit)] at first
      rw [if_neg (by simpa [hit] using differ)] at second
      obtain rfl := Option.some.inj first
      have mem := (List.mem_filter.mp (List.mem_of_getElem? second)).1
      obtain ⟨between, after, rfl⟩ := List.append_of_mem mem
      exact ⟨[], between, after, rfl⟩
    · rw [List.map_cons, List.takeWhile_cons_of_pos (by simpa using hit), List.mem_cons,
        not_or] at order
      rw [if_neg (by simpa using hit)] at first
      rw [if_neg (by simpa using Ne.symm order.1)] at second
      obtain ⟨before, between, after, rfl⟩ := ih first second order.2
      exact ⟨x :: before, between, after, rfl⟩

theorem Holds.symbols {s : Shape} {f : Forest} (holds : t.Holds s f) :
    s.tops.map t.symbol = f.roots := by
  induction holds with
  | nil => rfl
  | empty symbol _ ih => rw [Shape.tops, List.map_cons, symbol, ih, Forest.roots]
  | token symbol _ _ _ ih => rw [Shape.tops, List.map_cons, symbol, ih, Forest.roots]
  | node symbol _ _ _ _ ih => rw [Shape.tops, List.map_cons, symbol, ih, Forest.roots]

/-- A node with children has those of a rule. -/
theorem Holds.exists_rule {s : Shape} {f : Forest} (holds : t.Holds s f) {parent : Option NodeId}
    (fits : t.Fits parent s) (valid : f.Valid rules) (mem : id ∈ s.preorder) :
    t.children id = [] ∨
      ∃ r ∈ rules, t.symbol id = r.lhs ∧ (t.children id).map t.symbol = r.rhs := by
  induction holds generalizing parent with
  | nil => cases mem
  | empty _ _ ih =>
    obtain ⟨_, _, links, _, fitsR⟩ := fits
    rcases List.mem_cons.mp mem with rfl | mem
    · exact Or.inl links
    · exact ih fitsR valid mem
  | token _ _ _ _ ih =>
    obtain ⟨_, _, links, _, fitsR⟩ := fits
    rcases List.mem_cons.mp mem with rfl | mem
    · exact Or.inl links
    · exact ih fitsR valid.2.2 mem
  | node symbol links below _ ihb ih =>
    obtain ⟨_, _, _, fitsB, fitsR⟩ := fits
    obtain ⟨known, roots, validB, validR⟩ := valid
    rcases List.mem_cons.mp mem with rfl | mem
    · exact Or.inr ⟨_, known, symbol, by rw [links, below.symbols, roots]⟩
    · rcases List.mem_append.mp mem with mem | mem
      · exact ihb fitsB validB mem
      · exact ih fitsR validR mem

/-- The symbols of a rule stay in the order that the rule has them in. -/
theorem orderly_of_parse {g : Grammar} (accepted : Grammar.ofRules rules = .ok g)
    (unmarked_rules : ∀ r ∈ rules, Symbol.endOfInput ∉ r.rhs)
    (lineFirst : ∀ r ∈ rules, r.LineFirst) {tokens : List Token}
    (success : (g.parse tokens).error = none) (made : ofEvents (g.parse tokens).events = t) :
    t.Orderly := by
  -- only the tokens before one that looks like the end mark are in the tree
  obtain ⟨front, _, _, unmarked, same⟩ :=
    Grammar.exists_front_of_parse (Grammar.tableOf_accepted accepted) success
  have parsed : (g.parse front).error = none := by rw [same]
  have grown : ofEvents (g.parse front).events = t := by
    rw [same]
    exact made
  obtain ⟨f, shape, valid, _, _, shaped, shows, links, top⟩ :=
    exists_shows_of_parse accepted unmarked_rules unmarked parsed grown
  intro id first rest symbol line block
  have inside : id ∈ shape.preorder := by
    apply shaped.all.mem_iff.mpr
    apply List.mem_range.mpr
    apply Nat.lt_of_not_le
    intro outside
    rw [Tree.symbol, Array.getElem?_eq_none outside] at symbol
    exact absurd symbol (by decide)
  obtain _ | ⟨owner, below, others⟩ := shape
  · cases inside
  obtain ⟨rfl, alone⟩ := List.cons.inj shaped.top
  obtain rfl := Shape.tops_eq_nil alone
  obtain ⟨_, _, linked, fits, _⟩ := shaped.fits
  have holds := holds_of_shows fits ((linked.symm.trans links).symm ▸ shows)
  have other : id ≠ root := by
    rintro rfl
    rw [top] at symbol
    exact absurd symbol (by decide)
  have under : id ∈ below.preorder := by simpa [other] using inside
  have lineMem := child?_mem line
  rcases holds.exists_rule fits valid under with childless | ⟨r, known, lhs, rhs⟩
  · rw [childless] at lineMem
    cases lineMem.1
  · apply child?_before (by decide) line block
    rw [rhs]
    apply lineFirst r known (lhs.symm.trans symbol)
    rw [← rhs, ← lineMem.2]
    exact List.mem_map_of_mem lineMem.1

end Tree

namespace FrontEnd

open Assembler

section Language

variable {text : String} {f : FrontEnd} {tokens : List Token} {t : Tree} {p : Program}
  {s : Assembler}

/-- The grammar of the language leaves nothing behind, whatever the lexicon is. -/
theorem weight_eq_zero_of_language (loaded : ofTexts text Language.grammarText = .ok f)
    (success : (f.grammar.parse tokens).error = none)
    (made : Tree.ofEvents (f.grammar.parse tokens).events = t)
    (assembled : unresolved t = .ok (p, s)) : s.weight t.ids = 0 := by
  have accepted := Language.accepted_rules loaded
  have counted := counter_of_unresolved accepted success made assembled
  obtain ⟨b, spells, from_block⟩ := Language.exists_block_of_success accepted success
  rw [made, Language.Block.MadeFrom] at from_block
  rcases step : b.translate.run .new with ⟨r, l⟩
  rw [step, assembled] at from_block
  cases r with
  | error e =>
    obtain ⟨_, same⟩ := from_block
    cases same
  | ok q =>
    obtain ⟨_, same, rfl⟩ := from_block
    cases same
    obtain ⟨⟨own, length, carries⟩, _⟩ :=
      spells.translate_told Labels.carries_new Labels.fits_new step
    rw [carries.counter, List.append_nil, length] at counted
    omega

/-- With the grammar of the language a program is the lines of its tree in their order, and each
reference leads to the line that carries the label, whatever the lexicon is. -/
theorem lists_of_language (loaded : ofTexts text Language.grammarText = .ok f)
    (success : (f.grammar.parse tokens).error = none)
    (made : Tree.ofEvents (f.grammar.parse tokens).events = t)
    (assembled : unresolved t = .ok (p, s)) :
    s.labels.counter = -(p.length : Int) ∧ ∃ top lines, t.children Tree.root = [top] ∧
      t.Lists top lines ∧
      List.Forall₂ (fun text (i : Instruction) => i.name = text.name) lines p ∧
      ∀ name v index w, s.labels.placeholder? name = some v →
        s.labels.resolveValue index (.int v) = .ok w →
        ∃ (j : Nat) (text : Tree.LineText), lines[j]? = some text ∧ name ∈ text.labels ∧
          w = .int (j - index) := by
  have accepted := Language.accepted_rules loaded
  have none := weight_eq_zero_of_language loaded success made assembled
  have orderly := Tree.orderly_of_parse accepted (by decide) (by decide) success made
  refine ⟨?_, lists_of_unresolved accepted success made assembled none orderly⟩
  rw [counter_of_unresolved accepted success made assembled, none, Nat.add_zero]

end Language

end FrontEnd

end TableAsm
