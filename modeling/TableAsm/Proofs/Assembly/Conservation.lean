import TableAsm.Proofs.Assembly.Stepping
import TableAsm.Proofs.Grammar.Coverage
import TableAsm.Proofs.Tree.Derivation

/-! Whether the numbered instructions all reach the program. Each is held by some payload until an
action takes it, and an action takes only the children that it knows of. So the counter is minus
the length of the program and of what is left behind on the nodes of the tree. A label has the right
place where nothing is left behind and no line stands behind the block that it is put in front of. -/
namespace TableAsm

namespace Tree

open TableAsm.Parser

variable {rules : List Rule} {g : Grammar} {tokens : List Token}

/-- A parse that succeeds has begun: the start symbol alone is no text. -/
theorem events_ne_nil_of_success {mark : Token} (marked : mark.kind = Symbol.endOfInput)
    {events : List ParseEvent} {p : Parser} (chain : Reaches g mark (.initial tokens) events p)
    (ended : p.step g mark = .stop none) : events ≠ [] := by
  obtain ⟨below, stack, _⟩ := success_iff.mp ended
  generalize first : Parser.initial tokens = initial at chain
  cases chain with
  | refl =>
    rw [← first] at stack
    exact absurd (List.cons.inj stack).1 (by decide)
  | @step _ _ _ event later moved _ =>
    cases move_of_step marked moved with
    | erase => exact absurd (List.cons.inj (Parser.mk.inj first).1).1 (by decide)
    | expand | accept => exact List.cons_ne_nil _ _

/-- The tree of a successful parse has a root above one start symbol. -/
theorem exists_shape_of_parse (accepted : Grammar.ofRules rules = .ok g)
    (success : (g.parse tokens).error = none) {t : Tree}
    (made : ofEvents (g.parse tokens).events = t) :
    ∃ inner, t.Shaped (.node root (.node 1 inner .nil) .nil) ∧ t.symbol root = Symbol.root ∧
      t.symbol 1 = Symbol.start := by
  have marked := endMark_kind tokens
  obtain ⟨last, chain, stopped⟩ := Grammar.parse_run (Grammar.tableOf_accepted accepted) tokens
  rw [success] at stopped
  have begun := events_ne_nil_of_success marked chain stopped
  have planted_tracks : (planted Symbol.start).Tracks [Symbol.start] :=
    tracks_planted (by decide)
  have settled := settled_of_reaches accepted marked chain (w := [Symbol.start]) rfl planted_tracks
  obtain ⟨_, _, tracks⟩ := ofEvents_tracks accepted marked chain begun
  obtain ⟨shape, shaped⟩ := tracks.shaped
  have links := (settled.closed root (Nat.zero_lt_succ _) (by decide : root ∉ [1])).1
  have symbol := settled.symbols root (Nat.zero_lt_succ _)
  have symbol' := settled.symbols 1 (Nat.lt_succ_self _)
  rw [← ofEvents_eq_planted accepted marked chain begun, made] at links symbol symbol'
  rw [made] at shaped
  obtain _ | ⟨top, below, rest⟩ := shape
  · cases shaped.top
  · obtain ⟨rfl, alone⟩ := List.cons.inj shaped.top
    obtain rfl := Shape.tops_eq_nil alone
    have tops : below.tops = [1] := shaped.fits.2.2.1.symm.trans links
    obtain _ | ⟨first, inner, rest⟩ := below
    · cases tops
    · obtain ⟨rfl, alone⟩ := List.cons.inj tops
      obtain rfl := Shape.tops_eq_nil alone
      exact ⟨inner, shaped, symbol, symbol'⟩

end Tree

namespace Assembler

open Action

variable {t : Tree} {s : Assembler} {p : Program} {inner : Shape}

theorem weight_perm {nodes more : List NodeId} (perm : nodes.Perm more) :
    s.weight nodes = s.weight more :=
  (perm.map _).sum_eq

theorem exists_run_of_unresolved {shape : Shape} (shaped : t.Shaped shape)
    (made : unresolved t = .ok (p, s)) :
    ∃ s', (performAll t shape).run (initial t) = (.ok (), s') ∧
      s'.payload Tree.root = .block p ∧ s = s'.hold Tree.root .blank := by
  unfold unresolved at made
  rw [Tree.evaluateBottomUp_eq_foldlM shaped, foldlM_visit] at made
  split at made
  · cases made
  · rename_i m ended
    split at made
    · rename_i q s'' taken
      cases made
      obtain ⟨_, s₁, first, read⟩ := run_bind_eq_ok.mp taken
      obtain ⟨rfl, rfl⟩ := run_takeFrom_eq_ok.mp first
      obtain ⟨held, rfl⟩ := eq_of_asBlock read
      refine ⟨m, ?_, held, rfl⟩
      unfold outcome at ended
      split at ended
      · rename_i run
        cases ended
        exact run
      · cases ended
    · cases made

theorem run_perform_root {m : Assembler} {c : NodeId} {others : List NodeId}
    (symbol : t.symbol Tree.root = Symbol.root) (links : t.children Tree.root = c :: others)
    (run : (perform t Tree.root).run m = (.ok (), s)) :
    ∃ is, m.payload c = .block is ∧ s = (m.hold c .blank).hold Tree.root (.block is) := by
  have action : perform t Tree.root = whole t Tree.root >>= put Tree.root := by
    rw [perform, forNode?, symbol]
    rfl
  rw [action, whole, links] at run
  obtain ⟨q, s₁, built, placed⟩ := run_bind_eq_ok.mp run
  obtain ⟨_, s₂, taken, built⟩ := run_bind_eq_ok.mp built
  obtain ⟨is, s₃, read, built⟩ := run_bind_eq_ok.mp built
  obtain ⟨rfl, rfl⟩ := run_pure_eq_ok.mp built
  obtain ⟨rfl, rfl⟩ := run_takeFrom_eq_ok.mp taken
  obtain ⟨held, rfl⟩ := eq_of_asBlock read
  rw [run_put] at placed
  cases placed
  exact ⟨is, held, rfl⟩

theorem foldlM_visit_append {s s' s'' : Assembler} (before : List NodeId) {after : List NodeId}
    (first : before.foldlM (visit t) s = .ok s') (second : after.foldlM (visit t) s' = .ok s'') :
    (before ++ after).foldlM (visit t) s = .ok s'' := by
  rw [List.foldlM_append, first]
  exact second

theorem foldlM_visit_cons {s s' s'' : Assembler} {id : NodeId} {after : List NodeId}
    (first : visit t s id = .ok s') (second : after.foldlM (visit t) s' = .ok s'') :
    (id :: after).foldlM (visit t) s = .ok s'' := by
  rw [List.foldlM_cons, first]
  exact second

theorem visit_word {id : NodeId} {n : Int} {l : Labels} {raw : String}
    (symbol : t.symbol id = "IDENTIFIER") (text : t.raw id = some raw)
    (referred : s.labels.reference raw (t.position id) = (l, .ok n)) :
    visit t s id = .ok ({ s with labels := l }.hold id (.word raw n)) := by
  have action : forNode? t id = some (word raw (t.position id)) := by
    rw [forNode?, symbol, text]
    rfl
  have run : (word raw (t.position id) >>= put id).run s =
      (.ok (), { s with labels := l }.hold id (.word raw n)) := by
    rw [word, run_bind, run_bind, run_onLabels, referred]
    rfl
  rw [visit, action]
  simp only [run]

/-- The program is what the top of the tree holds when its subtree is done. What is left behind on
the tree is what was left below. -/
theorem unresolved_eq_ok (shaped : t.Shaped (.node Tree.root (.node 1 inner .nil) .nil))
    (symbol : t.symbol Tree.root = Symbol.root) (made : unresolved t = .ok (p, s)) :
    ∃ own m, m.labels = s.labels ∧ s.labels.Carries own ∧ Stands t m 1 inner own 0 ∧
      m.payload 1 = .block p ∧ s.weight t.ids = m.weight inner.preorder := by
  obtain ⟨inside, _, links, fits, _⟩ := shaped.fits
  have nodup := shaped.nodup
  simp only [Shape.preorder, List.append_nil, List.nodup_cons, List.mem_cons, not_or] at nodup
  obtain ⟨⟨_, aboveInner⟩, notInner, nodup⟩ := nodup
  have size : (initial t).payloads.size = t.size := Array.size_replicate
  have room : (initial t).Room (Shape.node 1 inner .nil).preorder := fun x mem => by
    rw [size]
    exact shaped.lt_size (List.mem_cons_of_mem _ (List.mem_append_left _ mem))
  have blank : ∀ x, (initial t).payload x = .blank := fun x => by
    rw [payload, initial, Array.getElem?_replicate]
    split <;> rfl
  obtain ⟨m', run, held, rfl⟩ := exists_run_of_unresolved shaped made
  rw [performAll_node, performAll_nil, pure_bind] at run
  obtain ⟨_, m, below, top⟩ := run_bind_eq_ok.mp run
  obtain ⟨is, payload, rfl⟩ := run_perform_root symbol links top
  obtain ⟨own, carries, _, keeps, yields⟩ := yields_of_performAll fits
    (by simpa using ⟨notInner, nodup⟩) room (fun x _ => blank x) Labels.carries_new
    Labels.fits_new below
  obtain _ | @⟨_, _, _, own, _, _, stands, rest⟩ := yields
  cases rest
  rw [payload_hold_self _ (by rw [size_hold, keeps.size, size]; exact inside)] at held
  obtain rfl := Payload.block.inj held
  rw [List.append_nil, List.append_nil] at carries
  refine ⟨own, m, rfl, carries, stands, payload, ?_⟩
  have left : (((m.hold 1 .blank).hold Tree.root (.block is)).hold Tree.root .blank).weight
      inner.preorder = m.weight inner.preorder := weight_congr fun x mem => by
    have notRoot : x ≠ Tree.root := fun same => aboveInner (same ▸ mem)
    have notTop : x ≠ 1 := fun same => notInner (same ▸ mem)
    rw [payload_hold_of_ne _ _ notRoot, payload_hold_of_ne _ _ notRoot,
      payload_hold_of_ne _ _ notTop]
  have taken : (m.hold 1 .blank).payload 1 = .blank := by rw [payload_hold_blank, if_pos rfl]
  have other : (1 : NodeId) ≠ Tree.root := by decide
  rw [← weight_perm shaped.all]
  simp only [Shape.preorder, List.append_nil, weight_cons, left]
  rw [payload_hold_blank, if_pos rfl, payload_hold_of_ne _ _ other, payload_hold_of_ne _ _ other,
    taken]
  simp only [Payload.weight, Nat.zero_add]

end Assembler

namespace FrontEnd

open Assembler

section Reading

variable {f : FrontEnd}

/-- Assembling a tree fails before its references are resolved, or the references of what has been
assembled are resolved. -/
theorem readProgram_eq_resolve {source : String} {tokens : List Token}
    (cut : f.tokenize source = .ok tokens) (success : (f.grammar.parse tokens).error = none) :
    f.readProgram source = match unresolved (.ofEvents (f.grammar.parse tokens).events) with
      | .error (e, _) => .error (.assembly e)
      | .ok (p, s) => match s.labels.resolve p with
        | (q, none) => .ok q
        | (_, some e) => .error (.assembly (.label e)) := by
  rw [readProgram, cut]
  simp only [parseTree, success, Tree.assemble]
  rcases unresolved (.ofEvents (f.grammar.parse tokens).events) with ⟨e, s⟩ | ⟨p, s⟩
  · rfl
  · simp only
    rcases s.labels.resolve p with ⟨q, _ | e⟩ <;> rfl

theorem counter_of_unresolved {g : Grammar} {rules : List Rule}
    (accepted : Grammar.ofRules rules = .ok g) {tokens : List Token}
    (success : (g.parse tokens).error = none) {t : Tree}
    (made : Tree.ofEvents (g.parse tokens).events = t) {p : Program} {s : Assembler}
    (assembled : unresolved t = .ok (p, s)) :
    s.labels.counter = -((p.length + s.weight t.ids : Nat) : Int) := by
  obtain ⟨inner, shaped, symbol, _⟩ := Tree.exists_shape_of_parse accepted success made
  obtain ⟨own, m, _, carries, stands, payload, left⟩ := unresolved_eq_ok shaped symbol assembled
  rw [carries.counter, stands.weight, weight_cons, payload, left]
  rfl

/-- If nothing is left behind and lines stand before the blocks behind them, the program has the
lines of the tree in their order, and a reference leads to the line that carries the label. -/
theorem lists_of_unresolved {g : Grammar} {rules : List Rule}
    (accepted : Grammar.ofRules rules = .ok g) {tokens : List Token}
    (success : (g.parse tokens).error = none) {t : Tree}
    (made : Tree.ofEvents (g.parse tokens).events = t) {p : Program} {s : Assembler}
    (assembled : unresolved t = .ok (p, s)) (none : s.weight t.ids = 0) (orderly : t.Orderly) :
    ∃ top lines, t.children Tree.root = [top] ∧ t.Lists top lines ∧
      List.Forall₂ (fun text (i : Instruction) => i.name = text.name) lines p ∧
      ∀ name v index w, s.labels.placeholder? name = some v →
        s.labels.resolveValue index (.int v) = .ok w →
        ∃ (j : Nat) (text : Tree.LineText), lines[j]? = some text ∧ name ∈ text.labels ∧
          w = .int (j - index) := by
  obtain ⟨inner, shaped, symbol, start⟩ := Tree.exists_shape_of_parse accepted success made
  obtain ⟨own, m, _, carries, stands, payload, left⟩ := unresolved_eq_ok shaped symbol assembled
  obtain ⟨lines, listed, rfl, names⟩ := stands.block (left.symm.trans none) orderly start p payload
  refine ⟨1, lines, shaped.fits.2.2.1, listed, names, fun name v index w known resolved => ?_⟩
  obtain ⟨j, here, found, mem, rfl⟩ := carries.resolveValue_eq_ok known resolved
  rw [List.getElem?_map] at found
  obtain ⟨text, place, rfl⟩ := Option.map_eq_some_iff.mp found
  exact ⟨j, text, place, mem, rfl⟩

/-- Once the tokens are parsed, either assembling fails before the references are resolved, or they
are resolved with a counter that is minus the length of the program and of all numbered instructions
that are left behind on the tree. If none are, and lines stand before the blocks behind them, the
program has the lines of the tree in their order and each resolved reference leads to the line that
carries the label. -/
theorem readProgram_accounts (lexiconText grammarText : String) (f : FrontEnd)
    (loaded : ofTexts lexiconText grammarText = .ok f) (source : String) (tokens : List Token)
    (cut : f.tokenize source = .ok tokens) (success : (f.grammar.parse tokens).error = none)
    (t : Tree) (made : Tree.ofEvents (f.grammar.parse tokens).events = t) :
    (∃ e s, unresolved t = .error (e, s) ∧ f.readProgram source = .error (.assembly e)) ∨
      ∃ p s, unresolved t = .ok (p, s) ∧
        f.readProgram source = (match s.labels.resolve p with
          | (q, none) => .ok q
          | (_, some e) => .error (.assembly (.label e))) ∧
        s.labels.counter = -((p.length + s.weight t.ids : Nat) : Int) ∧
        (s.weight t.ids = 0 → t.Orderly → ∃ top lines, t.children Tree.root = [top] ∧
          t.Lists top lines ∧
          List.Forall₂ (fun text (i : Instruction) => i.name = text.name) lines p ∧
          ∀ name v index w, s.labels.placeholder? name = some v →
            s.labels.resolveValue index (.int v) = .ok w →
            ∃ (j : Nat) (text : Tree.LineText), lines[j]? = some text ∧ name ∈ text.labels ∧
              w = .int (j - index)) := by
  obtain ⟨_, rules, _, accepted⟩ := parts_of_ofTexts loaded
  have read := readProgram_eq_resolve cut success
  rw [made] at read
  cases assembled : unresolved t with
  | error failure =>
    obtain ⟨e, s⟩ := failure
    rw [assembled] at read
    exact Or.inl ⟨e, s, rfl, read⟩
  | ok result =>
    obtain ⟨p, s⟩ := result
    rw [assembled] at read
    exact Or.inr ⟨p, s, rfl, read, counter_of_unresolved accepted success made assembled,
      lists_of_unresolved accepted success made assembled⟩

end Reading

section Pairs

def pairedLexicon : String := "IDENTIFIER [a-z]+\n;\n^SPACE \\s+\n"

/-- A grammar whose blocks have two lines at a time. The action of a block takes one. -/
def pairedLines : String :=
  "start = line \";\" line \";\" start | ;\n" ++
    "line = instruction ;\ninstruction = IDENTIFIER operands ;\noperands = ;"

def pairedTokens : List Token :=
  [⟨"IDENTIFIER", "a", ⟨1, 1⟩⟩, ⟨";", ";", ⟨1, 2⟩⟩, ⟨"IDENTIFIER", "b", ⟨1, 4⟩⟩, ⟨";", ";", ⟨1, 5⟩⟩]

def pairedEvents : List ParseEvent :=
  [.expand ⟨"start", ["line", ";", "line", ";", "start"]⟩, .expand ⟨"line", ["instruction"]⟩,
    .expand ⟨"instruction", ["IDENTIFIER", "operands"]⟩, .accept ⟨"IDENTIFIER", "a", ⟨1, 1⟩⟩,
    .expand ⟨"operands", ["EMPTY"]⟩, .accept ⟨";", ";", ⟨1, 2⟩⟩, .expand ⟨"line", ["instruction"]⟩,
    .expand ⟨"instruction", ["IDENTIFIER", "operands"]⟩, .accept ⟨"IDENTIFIER", "b", ⟨1, 4⟩⟩,
    .expand ⟨"operands", ["EMPTY"]⟩, .accept ⟨";", ";", ⟨1, 5⟩⟩, .expand ⟨"start", ["EMPTY"]⟩]

def pairedTree : Tree := .ofEvents pairedEvents

def pairedShape : Shape :=
  .node 0 (.node 1 (.node 2 (.node 7 (.node 8 .nil (.node 9 (.node 10 .nil .nil) .nil)) .nil)
    (.node 3 .nil (.node 4 (.node 11 (.node 12 .nil (.node 13 (.node 14 .nil .nil) .nil)) .nil)
      (.node 5 .nil (.node 6 (.node 15 .nil .nil) .nil))))) .nil) .nil

theorem exists_paired : ∃ f, ofTexts pairedLexicon pairedLines = .ok f ∧
    f.tokenize "a; b;" = .ok pairedTokens ∧ f.grammar.parse pairedTokens = ⟨pairedEvents, none⟩ := by
  have run : ((ofTexts pairedLexicon pairedLines).toOption.bind fun f =>
      (f.tokenize "a; b;").toOption.map fun tokens => (tokens, f.grammar.parse tokens)) =
      some (pairedTokens, ⟨pairedEvents, none⟩) := by decide +kernel
  cases loaded : ofTexts pairedLexicon pairedLines with
  | error e =>
    rw [loaded] at run
    cases run
  | ok f =>
    cases cut : f.tokenize "a; b;" with
    | error e =>
      rw [loaded, Except.toOption, Option.bind_some, cut] at run
      cases run
    | ok tokens =>
      rw [loaded, Except.toOption, Option.bind_some, cut] at run
      obtain ⟨rfl, parsed⟩ := Prod.mk.inj (Option.some.inj run)
      exact ⟨f, rfl, cut, parsed⟩

theorem pairedTree_shaped : pairedTree.Shaped pairedShape := ⟨by decide, rfl, by decide⟩

/-- Two lines are numbered, and the first one is the program. -/
theorem unresolved_pairedTree : ∃ s, unresolved pairedTree = .ok ([⟨"a", [], ∅, ∅⟩], s) ∧
    s.labels.counter = -2 := by
  -- the look-ups in the index are rewritten; all else of the visits computes
  have named : Labels.new.reference "b" (some ⟨1, 4⟩) =
      (⟨#[⟨"b", some ⟨1, 4⟩, none⟩], (∅ : Std.HashMap String Nat).insert "b" 0, 0⟩,
        .ok (Labels.placeholderAt 0)) := by
    simp only [Labels.reference, Labels.new, Std.HashMap.getElem?_empty]
    rfl
  have named' : Labels.reference ⟨#[⟨"b", some ⟨1, 4⟩, none⟩],
      (∅ : Std.HashMap String Nat).insert "b" 0, -1⟩ "a" (some ⟨1, 1⟩) =
      (⟨#[⟨"b", some ⟨1, 4⟩, none⟩, ⟨"a", some ⟨1, 1⟩, none⟩],
        ((∅ : Std.HashMap String Nat).insert "b" 0).insert "a" 1, -1⟩,
        .ok (Labels.placeholderAt 1)) := by
    simp only [Labels.reference, Std.HashMap.getElem?_insert, Std.HashMap.getElem?_empty,
      String.reduceBEq, Bool.false_eq_true, ↓reduceIte]
    rfl
  obtain ⟨s, run, held, counter⟩ : ∃ s,
      pairedShape.preorder.reverse.foldlM (visit pairedTree) (initial pairedTree) = .ok s ∧
        s.payload Tree.root = .block [⟨"a", [], ∅, ∅⟩] ∧ s.labels.counter = -2 :=
    ⟨_, foldlM_visit_append [15, 6, 5, 14, 13] rfl <|
      foldlM_visit_cons (visit_word rfl rfl named) <|
      foldlM_visit_append [11, 4, 3, 10, 9] rfl <|
      foldlM_visit_cons (visit_word rfl rfl named') rfl, rfl, rfl⟩
  have taken : (Action.takeFrom Tree.root >>= Action.asBlock).run s =
      (.ok [⟨"a", [], ∅, ∅⟩], s.hold Tree.root .blank) := by
    rw [run_bind, Action.run_takeFrom, held]
    rfl
  refine ⟨s.hold Tree.root .blank, ?_, counter⟩
  rw [unresolved, Tree.evaluateBottomUp_eq_foldlM pairedTree_shaped, run]
  simp only [taken]

/-- The line that is left behind is what the program and the counter differ by. -/
theorem readProgram_accounts_pairedLines :
    ∃ f s, ofTexts pairedLexicon pairedLines = .ok f ∧ f.tokenize "a; b;" = .ok pairedTokens ∧
      unresolved (.ofEvents (f.grammar.parse pairedTokens).events) =
        .ok ([⟨"a", [], ∅, ∅⟩], s) ∧ s.weight pairedTree.ids = 1 := by
  obtain ⟨f, loaded, cut, parsed⟩ := exists_paired
  obtain ⟨s, assembled, counter⟩ := unresolved_pairedTree
  rcases readProgram_accounts pairedLexicon pairedLines f loaded "a; b;" pairedTokens cut
    (by rw [parsed]) pairedTree (by rw [parsed]; rfl) with ⟨e, s', failed, _⟩ | ⟨p, s', made, _, counted, _⟩
  · rw [assembled] at failed
    cases failed
  · rw [assembled] at made
    cases made
    refine ⟨f, s, loaded, cut, ?_, ?_⟩
    · rw [parsed]
      exact assembled
    · rw [counter, List.length_singleton] at counted
      omega

/-- Not every numbered instruction reaches the program. -/
theorem exists_miscounted :
    ¬ ∀ (lexiconText grammarText : String) (f : FrontEnd),
      ofTexts lexiconText grammarText = .ok f → ∀ (source : String) (tokens : List Token),
        f.tokenize source = .ok tokens → (f.grammar.parse tokens).error = none →
          ∀ p s, unresolved (.ofEvents (f.grammar.parse tokens).events) = .ok (p, s) →
            s.labels.counter = -(p.length : Int) := by
  intro exact_count
  obtain ⟨f, loaded, cut, parsed⟩ := exists_paired
  obtain ⟨s, assembled, counter⟩ := unresolved_pairedTree
  have counted := exact_count pairedLexicon pairedLines f loaded "a; b;" pairedTokens cut
    (by rw [parsed]) _ s (by rw [parsed]; exact assembled)
  rw [counter] at counted
  exact absurd counted (by decide)

end Pairs

end FrontEnd

end TableAsm
