import TableAsm.Proofs.Language.Reading
import TableAsm.Proofs.Language.Translation
import TableAsm.Proofs.Tree.Derivation
import TableAsm.Proofs.Tree.Evaluation

/-! Running the actions of an assembler along a tree. What a subtree's actions do is compared with
a translation: they do to the labels what the translation does, fail where it fails, and leave the
result as the payload of the subtree's top. No payload outside the subtree changes. -/
namespace TableAsm

namespace Tree

/-- A row of subtrees holds a row of derivation trees. -/
inductive Holds (t : Tree) : Shape → Forest → Prop where
  | nil : t.Holds .nil .nil
  | empty {id : NodeId} {s : Shape} {f : Forest} : t.symbol id = Symbol.empty → t.Holds s f →
      t.Holds (.node id .nil s) (.empty f)
  | token {id : NodeId} {s : Shape} {x : Token} {f : Forest} : t.symbol id = x.kind →
      t.raw id = some x.lexeme → t.position id = some x.position → t.Holds s f →
      t.Holds (.node id .nil s) (.token x f)
  | node {id : NodeId} {below s : Shape} {r : Rule} {children f : Forest} :
      t.symbol id = r.lhs → t.children id = below.tops → t.Holds below children → t.Holds s f →
      t.Holds (.node id below s) (.node r children f)

theorem holds_of_shows {t : Tree} {f : Forest} {parent : Option NodeId} {s : Shape}
    (fits : t.Fits parent s) (shows : t.Shows s.tops f) : t.Holds s f := by
  generalize tops : s.tops = ids at shows
  induction shows generalizing parent s with
  | nil =>
    rw [Shape.tops_eq_nil tops]
    exact .nil
  | empty symbol _ childless _ ih =>
    obtain _ | ⟨id, below, rest⟩ := s
    · cases tops
    · obtain ⟨rfl, tail⟩ := List.cons.inj tops
      obtain ⟨_, _, links, _, fitsR⟩ := fits
      obtain rfl := Shape.tops_eq_nil (links.symm.trans childless)
      exact .empty symbol (ih fitsR tail)
  | token symbol raw position childless _ ih =>
    obtain _ | ⟨id, below, rest⟩ := s
    · cases tops
    · obtain ⟨rfl, tail⟩ := List.cons.inj tops
      obtain ⟨_, _, links, _, fitsR⟩ := fits
      obtain rfl := Shape.tops_eq_nil (links.symm.trans childless)
      exact .token symbol raw position (ih fitsR tail)
  | node symbol _ _ _ ihc ih =>
    obtain _ | ⟨id, below, rest⟩ := s
    · cases tops
    · obtain ⟨rfl, tail⟩ := List.cons.inj tops
      obtain ⟨_, _, links, fitsB, fitsR⟩ := fits
      exact .node symbol links (ihc fitsB links.symm) (ih fitsR tail)

end Tree

namespace Assembler

/-- The payload of a node. -/
def payload (s : Assembler) (id : NodeId) : Payload := s.payloads[id]?.getD .blank

/-- Puts a payload on a node. -/
def hold (s : Assembler) (id : NodeId) (p : Payload) : Assembler :=
  { s with payloads := s.payloads.modify id fun _ => p }

@[simp] theorem labels_hold (s : Assembler) (id : NodeId) (p : Payload) :
    (s.hold id p).labels = s.labels := rfl

@[simp] theorem repetitions_hold (s : Assembler) (id : NodeId) (p : Payload) :
    (s.hold id p).repetitions = s.repetitions := rfl

@[simp] theorem size_hold (s : Assembler) (id : NodeId) (p : Payload) :
    (s.hold id p).payloads.size = s.payloads.size := Array.size_modify

theorem payload_hold_of_ne (s : Assembler) {id x : NodeId} (p : Payload) (ne : x ≠ id) :
    (s.hold id p).payload x = s.payload x := by
  rw [payload, hold, Array.getElem?_modify, if_neg (Ne.symm ne), payload]

theorem payload_hold_self {s : Assembler} {id : NodeId} (p : Payload)
    (inside : id < s.payloads.size) : (s.hold id p).payload id = p := by
  rw [payload, hold, Array.getElem?_modify, if_pos rfl, Array.getElem?_eq_getElem inside]
  rfl

/-- Takes the payloads of some nodes. -/
@[simp] def clear : List NodeId → Assembler → Assembler
  | [], s => s
  | id :: ids, s => clear ids (s.hold id .blank)

@[simp] theorem labels_clear (ids : List NodeId) (s : Assembler) :
    (s.clear ids).labels = s.labels := by
  induction ids generalizing s with
  | nil => rfl
  | cons id ids ih => exact ih (s.hold id .blank)

/-- There is room for the payloads of some nodes. -/
def Room (s : Assembler) (nodes : List NodeId) : Prop := ∀ x ∈ nodes, x < s.payloads.size

theorem Room.sub {s : Assembler} {nodes fewer : List NodeId} (room : s.Room nodes)
    (sub : fewer ⊆ nodes) : s.Room fewer := fun x mem => room x (sub mem)

/-- From one assembler to another the payloads of some nodes may change, and no others. -/
structure Keeps (nodes : List NodeId) (s s' : Assembler) : Prop where
  size : s'.payloads.size = s.payloads.size
  others : ∀ x, x ∉ nodes → s'.payload x = s.payload x

namespace Keeps

variable {nodes more : List NodeId} {s s' s'' : Assembler}

theorem refl (nodes : List NodeId) (s : Assembler) : Keeps nodes s s := ⟨rfl, fun _ _ => rfl⟩

theorem hold {id : NodeId} (mem : id ∈ nodes) (s : Assembler) (p : Payload) :
    Keeps nodes s (s.hold id p) :=
  ⟨size_hold s id p, fun _ outside => payload_hold_of_ne s p fun eq => outside (eq ▸ mem)⟩

theorem relabel (nodes : List NodeId) (s : Assembler) (l : Labels) :
    Keeps nodes s { s with labels := l } := ⟨rfl, fun _ _ => rfl⟩

theorem trans (first : Keeps nodes s s') (second : Keeps nodes s' s'') : Keeps nodes s s'' :=
  ⟨second.size.trans first.size, fun x outside =>
    (second.others x outside).trans (first.others x outside)⟩

theorem clear {ids : List NodeId} (sub : ids ⊆ nodes) (s : Assembler) :
    Keeps nodes s (s.clear ids) := by
  induction ids generalizing s with
  | nil => exact refl nodes s
  | cons id ids ih =>
    exact (hold (sub List.mem_cons_self) s .blank).trans
      (ih (fun x mem => sub (List.mem_cons_of_mem _ mem)) (s.hold id .blank))

theorem room (h : Keeps nodes s s') (room : s.Room more) : s'.Room more := by
  intro x mem
  rw [h.size]
  exact room x mem

theorem mono (h : Keeps nodes s s') (sub : nodes ⊆ more) : Keeps more s s' :=
  ⟨h.size, fun x outside => h.others x fun mem => outside (sub mem)⟩

end Keeps

end Assembler

namespace Action

variable {t : Tree} {id c : NodeId} {s : Assembler}

theorem run_onLabels {α : Type} (f : Labels → Labels × Except LabelError α) (s : Assembler) :
    (onLabels f).run s = match f s.labels with
      | (l, .ok a) => (.ok a, { s with labels := l })
      | (l, .error e) => (.error (.label e), { s with labels := l }) := by
  simp only [onLabels, run_bind, run_get, run_set]
  rcases f s.labels with ⟨l, r⟩
  cases r <;> rfl

theorem run_child {symbol : String} {n : Nat}
    (found : ((t.children id).filter (t.symbol · == symbol))[n]? = some c) (s : Assembler) :
    (child t id symbol n).run s = (.ok c, s) := by
  rw [child, found]
  rfl

theorem run_take {symbol : String} {n : Nat}
    (found : ((t.children id).filter (t.symbol · == symbol))[n]? = some c) (s : Assembler) :
    (take t id symbol n).run s = (.ok (s.payload c), s.hold c .blank) := by
  rw [take, child, found]
  rfl

theorem run_takeFrom (c : NodeId) (s : Assembler) :
    (takeFrom c).run s = (.ok (s.payload c), s.hold c .blank) := rfl

theorem run_modify (f : Assembler → Assembler) (s : Assembler) :
    (modify f : Action PUnit).run s = (.ok ⟨⟩, f s) := rfl

theorem run_put (id : NodeId) (p : Payload) (s : Assembler) :
    (put id p).run s = (.ok (), s.hold id p) := rfl

/-- Runs the action of a node, if it has one, and puts the result on the node. -/
def perform (t : Tree) (id : NodeId) : Action Unit :=
  match forNode? t id with
  | none => pure ()
  | some action => action >>= put id

/-- Runs the actions of a row of subtrees, the last one first and each from its end. -/
def performAll (t : Tree) : Shape → Action Unit
  | .nil => pure ()
  | .node id below rest => do
    performAll t rest
    performAll t below
    perform t id

/-- Runs the actions of one subtree. -/
def performTree (t : Tree) (id : NodeId) (below : Shape) : Action Unit := do
  performAll t below
  perform t id

theorem performAll_nil (t : Tree) : performAll t .nil = pure () := rfl

theorem performAll_node (t : Tree) (id : NodeId) (below rest : Shape) :
    performAll t (.node id below rest) = performAll t rest >>= fun _ => performTree t id below :=
  rfl

theorem performTree_nil (t : Tree) (id : NodeId) : performTree t id .nil = perform t id := by
  rw [performTree, performAll, pure_bind]

end Action

open Action

/-- What an assembler comes to, as visits tell it. -/
def Action.outcome (r : Except AssemblyError Unit × Assembler) :
    Except (AssemblyError × Assembler) Assembler :=
  match r with
  | (.ok (), s) => .ok s
  | (.error e, s) => .error (e, s)

theorem Assembler.visit_eq (t : Tree) (s : Assembler) (id : NodeId) :
    visit t s id = outcome ((perform t id).run s) := by
  rw [visit, perform]
  cases forNode? t id <;> rfl

theorem Action.outcome_bind (x y : Action Unit) (s : Assembler) :
    outcome ((x >>= fun _ => y).run s) = outcome (x.run s) >>= fun s => outcome (y.run s) := by
  rw [run_bind]
  rcases x.run s with ⟨r, s'⟩
  cases r <;> rfl

theorem Assembler.foldlM_visit (t : Tree) (shape : Shape) (s : Assembler) :
    shape.preorder.reverse.foldlM (visit t) s = outcome ((performAll t shape).run s) := by
  induction shape generalizing s with
  | nil => rfl
  | node id below rest ihb ih =>
    have order : (Shape.node id below rest).preorder.reverse =
        rest.preorder.reverse ++ (below.preorder.reverse ++ [id]) := by
      simp
    rw [order, List.foldlM_append, performAll, outcome_bind, ih]
    refine bind_congr fun s => ?_
    rw [List.foldlM_append, outcome_bind, ihb]
    refine bind_congr fun s => ?_
    rw [List.foldlM_cons, visit_eq]
    exact bind_pure _

namespace Language

open Translation

/-- An action does to the labels what a translation does, and fails where that fails. -/
def Performs {α : Type} (s : Assembler) (x : Action Unit) (m : Translation α)
    (Q : Assembler → α → Prop) : Prop :=
  match m.run s.labels with
  | (.ok a, l) => ∃ s', x.run s = (.ok (), s') ∧ s'.labels = l ∧ Q s' a
  | (.error e, _) => ∃ s', x.run s = (.error e, s')

section Performing

variable {α β : Type} {s : Assembler} {x y : Action Unit}

theorem Performs.bind {m : Translation α} {f : α → Translation β} {Q : Assembler → α → Prop}
    {R : Assembler → β → Prop} (first : Performs s x m Q)
    (next : ∀ s' a, Q s' a → Performs s' y (f a) R) :
    Performs s (x >>= fun _ => y) (m >>= f) R := by
  unfold Performs at first ⊢
  rw [run_bind, run_bind]
  rcases translated : m.run s.labels with ⟨r, l⟩
  rw [translated] at first
  cases r with
  | error e =>
    obtain ⟨s', run⟩ := first
    exact ⟨s', by rw [run]⟩
  | ok a =>
    obtain ⟨s', run, rfl, q⟩ := first
    rw [run]
    exact next s' a q

theorem Performs.of_run {a : α} {s' : Assembler} {Q : Assembler → α → Prop}
    (run : x.run s = (.ok (), s')) (labels : s'.labels = s.labels) (q : Q s' a) :
    Performs s x (pure a) Q := ⟨s', run, labels, q⟩

theorem Performs.throw {e : AssemblyError} {f : α → Translation β} {Q : Assembler → β → Prop}
    (s' : Assembler) (run : x.run s = (.error e, s')) :
    Performs s x (throw e >>= f) Q := ⟨s', run⟩

theorem Performs.map {m : Translation α} {g : α → β} {Q : Assembler → α → Prop}
    {R : Assembler → β → Prop} (h : Performs s x m Q) (imp : ∀ s' a, Q s' a → R s' (g a)) :
    Performs s x (m >>= fun a => pure (g a)) R := by
  have performed := h.bind (y := pure ()) (f := fun a => pure (g a)) (R := R)
    fun s' a q => .of_run rfl rfl (imp s' a q)
  rwa [show (x >>= fun _ => pure ()) = x from bind_pure x] at performed

section Finishing

variable {P : α → Payload} {id : NodeId} {nodes : List NodeId} {s₀ s' : Assembler}
  (keeps : Assembler.Keeps nodes s₀ s) (room : s₀.Room nodes) (mem : id ∈ nodes)

include keeps room mem

/-- An action that takes the payloads of some nodes and puts one on a node. -/
theorem Performs.finish {a : α} (taken : List NodeId) (sub : taken ⊆ nodes)
    (run : x.run s = (.ok (), (s.clear taken).hold id (P a))) :
    Performs s x (pure a) fun s' a => s'.payload id = P a ∧ Assembler.Keeps nodes s₀ s' := by
  have cleared := keeps.trans (.clear sub s)
  refine .of_run run ?_ ⟨?_, ?_⟩
  · rw [Assembler.labels_hold, Assembler.labels_clear]
  · exact Assembler.payload_hold_self _ (cleared.room room id mem)
  · exact cleared.trans (.hold mem _ _)

/-- An action that in between runs an operation on the labels. -/
theorem Performs.finish_onLabels {f : Labels → Labels × Except LabelError α} (s' : Assembler)
    (labels : s'.labels = s.labels) (kept : Assembler.Keeps nodes s s')
    (run : x.run s = (Action.onLabels f >>= fun a => put id (P a)).run s') :
    Performs s x (Translation.onLabels f) fun s' a =>
      s'.payload id = P a ∧ Assembler.Keeps nodes s₀ s' := by
  unfold Performs
  rw [run, run_bind, Action.run_onLabels, Translation.run_onLabels, labels]
  rcases f s.labels with ⟨l, r⟩
  cases r with
  | error e => exact ⟨_, rfl⟩
  | ok a =>
    have relabelled := (keeps.trans kept).trans (.relabel nodes _ l)
    refine ⟨_, rfl, rfl, ?_, ?_⟩
    · exact Assembler.payload_hold_self (P a) (relabelled.room room id mem)
    · exact relabelled.trans (.hold mem _ (P a))

end Finishing

end Performing

/-- The assembler translates a subtree: it leaves the result on the top and touches nothing
outside. -/
def Translates {α : Type} (t : Tree) (id : NodeId) (below : Shape) (m : Translation α)
    (P : α → Payload) : Prop :=
  ∀ s : Assembler, s.Room (id :: below.preorder) →
    Performs s (performTree t id below) m fun s' a =>
      s'.payload id = P a ∧ Assembler.Keeps (id :: below.preorder) s s'

/-- Of two subtrees among some nodes neither has a node of the other. -/
theorem two_subtrees (u w xs : List NodeId) {ys : List NodeId} {x y : NodeId}
    (nodup : (u ++ x :: (xs ++ (w ++ y :: ys))).Nodup) :
    (x :: xs).Nodup ∧ (y :: ys).Nodup ∧ (∀ z ∈ y :: ys, z ∉ x :: xs) ∧
      x :: xs ⊆ u ++ x :: (xs ++ (w ++ y :: ys)) ∧ y :: ys ⊆ u ++ x :: (xs ++ (w ++ y :: ys)) := by
  have behind : ((x :: xs) ++ (w ++ y :: ys)).Nodup := (List.nodup_append.mp nodup).2.1
  obtain ⟨nodupX, nodupW, disjoint⟩ := List.nodup_append.mp behind
  have inside : ∀ z ∈ y :: ys, z ∈ w ++ y :: ys := fun z mem => List.mem_append_right w mem
  refine ⟨nodupX, (List.nodup_append.mp nodupW).2.1, ?_, ?_, ?_⟩
  · exact fun z mem other => disjoint z other z (inside z mem) rfl
  · intro z mem
    exact List.mem_append_right u (List.mem_append_left (w ++ y :: ys) mem)
  · intro z mem
    exact List.mem_append_right u (List.mem_append_right (x :: xs) (inside z mem))

/-- The assembler translates two subtrees one after the other and goes on from both results. -/
theorem Performs.pair {α β γ : Type} {t : Tree} {x y : NodeId} {xs ys : Shape}
    {m : Translation α} {n : Translation β} {f : β → α → Translation γ} {P : α → Payload}
    {R : β → Payload} {s : Assembler} {k : Action Unit} {Q : Assembler → γ → Prop}
    {nodes : List NodeId} (room : s.Room nodes) (subX : x :: xs.preorder ⊆ nodes)
    (subY : y :: ys.preorder ⊆ nodes) (apart : y ∉ x :: xs.preorder)
    (second : Translates t y ys n R) (first : Translates t x xs m P)
    (next : ∀ s' b a, s'.payload y = R b → s'.payload x = P a → Assembler.Keeps nodes s s' →
      Performs s' k (f b a) Q) :
    Performs s (performTree t y ys >>= fun _ => performTree t x xs >>= fun _ => k)
      (n >>= fun b => m >>= fun a => f b a) Q := by
  refine Performs.bind (second s (room.sub subY)) fun s₁ b held => ?_
  obtain ⟨payloadY, keepsY⟩ := held
  refine Performs.bind (first s₁ (keepsY.room (room.sub subX))) fun s₂ a held => ?_
  obtain ⟨payloadX, keepsX⟩ := held
  refine next s₂ b a ?_ payloadX ((keepsY.mono subY).trans (keepsX.mono subX))
  rw [keepsX.others y apart, payloadY]

end Language

end TableAsm
