import Mathlib.Data.List.Induction
import TableAsm.Proofs.Tree.Coherence
import TableAsm.Tree.Evaluation

/-! Bottom-up evaluation visits the nodes of a tree in the reverse of their preorder. At any time
the nodes left to visit are the first ones in preorder, each node counts its children among them, and
the eligible ones are those that have none. -/
namespace TableAsm.Tree

variable {σ ε : Type} {t : Tree}

/-- A stretch of an evaluation in which no visit fails, with the nodes in the order of visits. -/
inductive Visits (t : Tree) (action : σ → NodeId → Except ε σ) :
    Agenda → σ → List NodeId → Agenda → σ → Prop where
  | none (agenda : Agenda) (state : σ) : Visits t action agenda state [] agenda state
  | next {remaining : Array Nat} {id : NodeId} {rest calls : List NodeId} {agenda : Agenda}
      {state after last : σ} : action state id = .ok after →
      Visits t action (.finish (t.parent id) rest remaining) after calls agenda last →
      Visits t action ⟨remaining, id :: rest⟩ state (id :: calls) agenda last

/-- A node has no child among those that are left. -/
def Ready (t : Tree) (left : List NodeId) (id : NodeId) : Prop := ∀ c ∈ t.children id, c ∉ left

instance (t : Tree) (left : List NodeId) (id : NodeId) : Decidable (t.Ready left id) :=
  inferInstanceAs (Decidable (∀ c ∈ t.children id, c ∉ left))

/-- The agenda where these nodes are left to visit. -/
structure Agenda.Awaits (t : Tree) (left : List NodeId) (agenda : Agenda) : Prop where
  counts : ∀ p : Nat, p < t.size →
    agenda.remaining[p]? = some ((t.children p).countP (· ∈ left))
  eligible : agenda.eligible = (left.filter fun id => t.Ready left id).reverse

section Order

variable {s : Shape} (shaped : t.Shaped s) {u v : List NodeId} {id : NodeId}

include shaped

/-- What is below a node stands directly behind it in preorder. -/
theorem Shaped.exists_below (split : s.preorder = u ++ id :: v) :
    ∃ (below : Shape) (right : List NodeId),
      t.children id = below.tops ∧ v = below.preorder ++ right := by
  have nodup := shaped.nodup
  obtain ⟨below, _, links, left, right, parts⟩ :=
    shaped.fits.exists_below (show id ∈ s.preorder by simp [split])
  have once : id ∉ left ∧ id ∉ below.preorder ++ right := by
    rw [parts, List.nodup_middle] at nodup
    simpa using (List.nodup_cons.mp nodup).1
  obtain ⟨_, _, behind⟩ :=
    (List.append_cons_inj_of_notMem once.1 once.2).mp (parts.symm.trans split)
  exact ⟨below, right, links, behind.symm⟩

theorem Shaped.ready_last (split : s.preorder = u ++ id :: v) : t.Ready (u ++ [id]) id := by
  intro c child before
  obtain ⟨below, right, links, rfl⟩ := shaped.exists_below split
  have nodup := shaped.nodup
  rw [split, List.append_cons] at nodup
  have behind := List.mem_append_left right (Shape.mem_preorder_of_mem_tops (links ▸ child))
  exact (List.nodup_append.mp nodup).2.2 c before c behind rfl

/-- Among the first nodes in preorder the only parent without a child there is the last one. -/
theorem Shaped.eq_concat_of_ready (split : s.preorder = u ++ v) {p : NodeId} (mem : p ∈ u)
    (some_child : t.children p ≠ []) (ready : t.Ready u p) : ∃ l, u = l ++ [p] := by
  obtain ⟨l, r, rfl⟩ := List.append_of_mem mem
  rw [List.append_assoc, List.cons_append] at split
  obtain ⟨below, right, links, behind⟩ := shaped.exists_below split
  cases r with
  | nil => exact ⟨l, rfl⟩
  | cons y r =>
    obtain _ | ⟨c, deep, beside⟩ := below
    · exact absurd links some_child
    · obtain ⟨rfl, _⟩ := List.cons.inj behind
      exact absurd (by simp) (ready y (by rw [links]; exact List.mem_cons_self))

theorem Shaped.parent_before (split : s.preorder = u ++ id :: v) {p : NodeId}
    (up : t.parent id = some p) : p ∈ u := by
  have child := shaped.mem_children_iff.mpr up
  have inside := shaped.whole p (List.ne_nil_of_mem child)
  rw [split] at inside
  rcases List.mem_append.mp inside with before | later
  · exact before
  · exfalso
    rcases List.mem_cons.mp later with rfl | behind
    · exact shaped.ready_last split p child (by simp)
    · obtain ⟨between, right, rfl⟩ := List.append_of_mem behind
      rw [← List.cons_append, ← List.append_assoc] at split
      exact shaped.ready_last split id child (by simp)

theorem Shaped.awaits_initial : (Agenda.initial t).Awaits t s.preorder := by
  have inside : ∀ id c, c ∈ t.children id → c ∈ s.preorder := fun id c child =>
    shaped.fits.mem_of_child (shaped.whole id (List.ne_nil_of_mem child)) child
  constructor
  · intro p lt
    have all : (t.children p).countP (· ∈ s.preorder) = (t.children p).length :=
      List.countP_eq_length.mpr fun c child => decide_eq_true (inside p c child)
    have node : p < t.nodes.size := lt
    rw [all, Agenda.initial, Array.getElem?_map, children, Array.getElem?_eq_getElem node]
    rfl
  · rw [Agenda.initial, shaped.leaves_eq, shaped.fits.leaves_eq_filter]
    refine congrArg List.reverse (List.filter_congr fun id _ => ?_)
    rw [decide_eq_decide]
    constructor
    · intro childless c child
      rw [childless] at child
      cases child
    · intro ready
      exact List.eq_nil_iff_forall_not_mem.mpr fun c child => ready c child (inside id c child)

end Order

section Last

variable {u : List NodeId} {id n : NodeId}

/-- Whether a node is left matters to its parent only. -/
theorem ready_concat_iff (other : id ∉ t.children n) :
    t.Ready (u ++ [id]) n ↔ t.Ready u n := by
  refine forall₂_congr fun c child => ?_
  have ne : c ≠ id := fun same => other (same ▸ child)
  simp [ne]

theorem countP_concat (other : id ∉ t.children n) :
    (t.children n).countP (· ∈ u ++ [id]) = (t.children n).countP (· ∈ u) := by
  refine List.countP_congr fun c child => ?_
  have ne : c ≠ id := fun same => other (same ▸ child)
  simp [ne]

theorem countP_concat_parent (nodup : (t.children n).Nodup) (child : id ∈ t.children n)
    (once : id ∉ u) :
    (t.children n).countP (· ∈ u ++ [id]) = (t.children n).countP (· ∈ u) + 1 := by
  obtain ⟨before, after, split⟩ := List.append_of_mem child
  rw [split, List.nodup_middle] at nodup
  have absent : ∀ c ∈ before ++ after, c ≠ id := fun c mem same =>
    (List.nodup_cons.mp nodup).1 (same ▸ mem)
  have same : ∀ cs : List NodeId, (∀ c ∈ cs, c ≠ id) →
      cs.countP (· ∈ u ++ [id]) = cs.countP (· ∈ u) := by
    intro cs other
    exact List.countP_congr fun c mem => by simp [other c mem]
  rw [split, List.countP_append, List.countP_append, List.countP_cons, List.countP_cons,
    same before fun c mem => absent c (List.mem_append_left _ mem),
    same after fun c mem => absent c (List.mem_append_right _ mem)]
  simp [once]
  omega

end Last

/-- The agenda behind the last but `left` children of a node. -/
theorem finish_child {p : Nat} {left : Nat} {remaining : Array Nat}
    (count : remaining[p]? = some (left + 1)) (rest : List NodeId) :
    ∃ after : Array Nat, (∀ n : Nat, n ≠ p → after[n]? = remaining[n]?) ∧ after[p]? = some left ∧
      Agenda.finish (some p) rest remaining = ⟨after, if left = 0 then p :: rest else rest⟩ := by
  have one : remaining[p]?.getD 0 - 1 = left := by rw [count]; rfl
  refine ⟨remaining.modify p fun _ => left, ?_, ?_, ?_⟩
  · intro n other
    rw [Array.getElem?_modify, if_neg (Ne.symm other)]
  · rw [Array.getElem?_modify, if_pos rfl, count]
    rfl
  · rw [Agenda.finish, one]

section Steps

variable {s : Shape} (shaped : t.Shaped s) {u v : List NodeId} {id : NodeId}

include shaped

/-- The nodes that are eligible behind a visit: the parent if no child of it is left, and those
from before. -/
theorem Shaped.eligible_finish (split : s.preorder = u ++ id :: v) {p : NodeId}
    (up : t.parent id = some p) :
    (u.filter fun n => t.Ready u n).reverse =
      if t.Ready u p then p :: (u.filter fun n => t.Ready (u ++ [id]) n).reverse
      else (u.filter fun n => t.Ready (u ++ [id]) n).reverse := by
  have child := shaped.mem_children_iff.mpr up
  have others : ∀ n, n ≠ p → (t.Ready (u ++ [id]) n ↔ t.Ready u n) := by
    intro n ne
    apply ready_concat_iff
    intro mem
    rw [shaped.mem_children_iff, up] at mem
    exact ne (Option.some.inj mem).symm
  have counted : ¬ t.Ready (u ++ [id]) p := fun ready => ready id child (by simp)
  split
  · rename_i ready
    -- a parent that becomes eligible is the last node left, so it comes on top
    have whole : s.preorder = u ++ ([id] ++ v) := split
    obtain ⟨l, last⟩ := shaped.eq_concat_of_ready whole (shaped.parent_before split up)
      (List.ne_nil_of_mem child) ready
    have nodup := shaped.nodup.sublist (whole ▸ List.sublist_append_left u _)
    rw [last, List.nodup_append] at nodup
    have same : l.filter (fun n => t.Ready u n) = l.filter fun n => t.Ready (u ++ [id]) n := by
      refine List.filter_congr fun n mem => ?_
      rw [decide_eq_decide, others n (nodup.2.2 n mem p (List.mem_singleton_self p))]
    have step : ∀ q : NodeId → Bool, (u.filter q).reverse =
        ([p].filter q).reverse ++ (l.filter q).reverse := by
      intro q
      rw [last, List.filter_append, List.reverse_append]
    rw [step, step, same]
    simp [ready, counted]
  · rename_i waits
    refine congrArg List.reverse (List.filter_congr fun n _ => ?_)
    rw [decide_eq_decide]
    by_cases parent : n = p
    · rw [parent]
      exact iff_of_false waits counted
    · exact (others n parent).symm

/-- The node that comes last in preorder is next, its parent still counts it, and behind it the
other nodes are left. -/
theorem Shaped.awaits_finish (split : s.preorder = u ++ id :: v) {agenda : Agenda}
    (awaits : agenda.Awaits t (u ++ [id])) :
    ∃ rest, agenda.eligible = id :: rest ∧
      (Agenda.finish (t.parent id) rest agenda.remaining).Awaits t u ∧
      ∀ p, t.parent id = some p → ∃ left, agenda.remaining[p]? = some (left + 1) := by
  have nodup := shaped.nodup
  rw [split, List.nodup_middle] at nodup
  have once : id ∉ u := fun mem => (List.nodup_cons.mp nodup).1 (List.mem_append_left v mem)
  have next : agenda.eligible = id :: (u.filter fun n => t.Ready (u ++ [id]) n).reverse := by
    have ready := shaped.ready_last split
    rw [awaits.eligible, List.filter_append, List.reverse_append]
    simp [ready]
  refine ⟨_, next, ?_⟩
  cases up : t.parent id with
  | none =>
    have others : ∀ n, id ∉ t.children n := by
      intro n child
      rw [shaped.mem_children_iff, up] at child
      cases child
    refine ⟨⟨fun p lt => ?_, ?_⟩, fun p impossible => nomatch impossible⟩
    · rw [Agenda.finish, awaits.counts p lt, countP_concat (others p)]
    · refine congrArg List.reverse (List.filter_congr fun n _ => ?_)
      rw [decide_eq_decide, ready_concat_iff (others n)]
  | some p =>
    have child := shaped.mem_children_iff.mpr up
    have inside := shaped.mem_preorder_iff.mp (shaped.whole p (List.ne_nil_of_mem child))
    have count := awaits.counts p inside
    rw [countP_concat_parent (shaped.nodup_children p) child once] at count
    obtain ⟨after, kept, counted, finished⟩ :=
      finish_child count (u.filter fun n => t.Ready (u ++ [id]) n).reverse
    refine ⟨⟨fun n lt => ?_, ?_⟩, ?_⟩
    · rw [finished]
      by_cases parent : n = p
      · rw [parent]
        exact counted
      · have other : id ∉ t.children n := by
          intro mem
          rw [shaped.mem_children_iff, up] at mem
          exact parent (Option.some.inj mem).symm
        rw [kept n parent, awaits.counts n lt, countP_concat other]
    · have none_left : (t.children p).countP (· ∈ u) = 0 ↔ t.Ready u p := by
        simp [List.countP_eq_zero, Ready]
      simp only [finished, shaped.eligible_finish split up, none_left]
    · rintro q same
      obtain rfl := Option.some.inj same
      exact ⟨_, count⟩

theorem Visits.awaits {action : σ → NodeId → Except ε σ} {agenda last : Agenda} {state final : σ}
    {calls w : List NodeId} (visits : t.Visits action agenda state calls last final)
    (split : s.preorder = w ++ v) (awaits : agenda.Awaits t w) :
    ∃ u, w = u ++ calls.reverse ∧ last.Awaits t u := by
  induction visits generalizing w v with
  | none agenda state => exact ⟨w, by simp, awaits⟩
  | @next remaining id rest calls agenda state after last acted _ ih =>
    rcases List.eq_nil_or_concat w with rfl | ⟨w, x, rfl⟩
    · cases awaits.eligible
    · rw [List.concat_eq_append] at split awaits ⊢
      rw [← List.append_cons] at split
      obtain ⟨others, next, behind, _⟩ := shaped.awaits_finish split awaits
      obtain ⟨rfl, rfl⟩ := List.cons.inj next
      obtain ⟨u, rfl, ends⟩ := ih split behind
      exact ⟨u, by simp, ends⟩

/-- The visits go on until nothing is left, or until one of them fails. -/
theorem Shaped.exists_visits (action : σ → NodeId → Except ε σ) (split : s.preorder = u ++ v)
    {agenda : Agenda} (awaits : agenda.Awaits t u) (state : σ) :
    (∃ last final, t.Visits action agenda state u.reverse last final ∧ last.eligible = []) ∨
      ∃ calls id later last final rest e, u.reverse = calls ++ id :: later ∧
        t.Visits action agenda state calls last final ∧ last.eligible = id :: rest ∧
        action final id = .error e := by
  -- each visit takes the last of the nodes that are left
  induction u using List.reverseRecOn generalizing v agenda state with
  | nil => exact Or.inl ⟨agenda, state, .none agenda state, awaits.eligible⟩
  | append_singleton u id ih =>
    rw [← List.append_cons] at split
    obtain ⟨rest, next, behind, _⟩ := shaped.awaits_finish split awaits
    obtain ⟨remaining, eligible⟩ := agenda
    obtain rfl : eligible = id :: rest := next
    rw [List.reverse_concat]
    cases acted : action state id with
    | error e =>
      exact Or.inr ⟨[], id, u.reverse, _, state, rest, e, rfl, .none _ state, rfl, acted⟩
    | ok after =>
      rcases ih split behind after with ⟨last, final, visits, ended⟩ |
        ⟨calls, stop, later, last, final, others, e, order, visits, top, failed⟩
      · exact Or.inl ⟨last, final, .next acted visits, ended⟩
      · refine Or.inr ⟨id :: calls, stop, later, last, final, others, e, ?_, .next acted visits,
          top, failed⟩
        rw [order, List.cons_append]

end Steps

section Outcome

variable {action : σ → NodeId → Except ε σ} {agenda last : Agenda} {state final : σ}
  {calls : List NodeId}

theorem Visits.visitEligible_eq (visits : t.Visits action agenda state calls last final)
    (fuel : Nat) : t.visitEligible action (calls.length + fuel) agenda state =
      t.visitEligible action fuel last final := by
  induction visits with
  | none agenda state => simp
  | next acted _ ih =>
    rw [List.length_cons, Nat.add_right_comm, visitEligible]
    simp only [acted, ih]

theorem Visits.foldlM_eq (visits : t.Visits action agenda state calls last final) :
    calls.foldlM action state = .ok final := by
  induction visits with
  | none agenda state => rfl
  | next acted _ ih =>
    rw [List.foldlM_cons, acted]
    exact ih

theorem visitEligible_failed {id : NodeId} {rest : List NodeId} {e : ε} (fuel : Nat)
    (top : agenda.eligible = id :: rest) (failed : action state id = .error e) :
    t.visitEligible action (fuel + 1) agenda state = .error e := by
  obtain ⟨remaining, eligible⟩ := agenda
  obtain rfl : eligible = id :: rest := top
  rw [visitEligible]
  simp only [failed]

variable {s : Shape} (shaped : t.Shaped s)

include shaped

theorem Shaped.length_order : s.preorder.reverse.length = t.size := by
  rw [List.length_reverse, shaped.all.length_eq, ids, List.length_range]

theorem Shaped.evaluateBottomUp_of_visits
    (visits : t.Visits action (.initial t) state s.preorder.reverse last final) :
    t.evaluateBottomUp action state = .ok final := by
  rw [evaluateBottomUp, ← shaped.length_order]
  exact visits.visitEligible_eq 0

theorem Shaped.evaluateBottomUp_of_failure {id : NodeId} {later rest : List NodeId} {e : ε}
    (order : s.preorder.reverse = calls ++ id :: later)
    (visits : t.Visits action (.initial t) state calls last final)
    (top : last.eligible = id :: rest) (failed : action final id = .error e) :
    t.evaluateBottomUp action state = .error e := by
  rw [evaluateBottomUp, ← shaped.length_order, order, List.length_append, List.length_cons,
    visits.visitEligible_eq, visitEligible_failed _ top failed]

theorem Shaped.evaluateBottomUp_cases (action : σ → NodeId → Except ε σ) (state : σ) :
    (∃ last final, t.Visits action (.initial t) state s.preorder.reverse last final ∧
      last.eligible = [] ∧ t.evaluateBottomUp action state = .ok final) ∨
    ∃ calls id later last final rest e, s.preorder.reverse = calls ++ id :: later ∧
      t.Visits action (.initial t) state calls last final ∧ last.eligible = id :: rest ∧
      action final id = .error e ∧ t.evaluateBottomUp action state = .error e := by
  have whole : s.preorder = s.preorder ++ [] := (List.append_nil _).symm
  rcases shaped.exists_visits action whole shaped.awaits_initial state with
    ⟨last, final, visits, ended⟩ |
      ⟨calls, id, later, last, final, rest, e, order, visits, top, failed⟩
  · have done := shaped.evaluateBottomUp_of_visits visits
    exact Or.inl ⟨last, final, visits, ended, done⟩
  · have stopped := shaped.evaluateBottomUp_of_failure order visits top failed
    exact Or.inr ⟨calls, id, later, last, final, rest, e, order, visits, top, failed, stopped⟩

/-- Bottom-up evaluation runs an action over the nodes of a tree from the last in preorder to the
first. -/
theorem evaluateBottomUp_eq_foldlM (action : σ → NodeId → Except ε σ) (state : σ) :
    t.evaluateBottomUp action state = s.preorder.reverse.foldlM action state := by
  rcases shaped.evaluateBottomUp_cases action state with ⟨_, final, visits, _, done⟩ |
    ⟨calls, id, later, _, final, _, e, order, visits, _, failed, stopped⟩
  · rw [done, visits.foldlM_eq]
  · rw [stopped, order, List.foldlM_append, visits.foldlM_eq]
    show Except.error e = List.foldlM action final (id :: later)
    rw [List.foldlM_cons, failed]
    rfl

theorem Shaped.evaluateBottomUp_eq_ok_iff : t.evaluateBottomUp action state = .ok final ↔
    ∃ last, t.Visits action (.initial t) state s.preorder.reverse last final ∧
      last.eligible = [] := by
  constructor
  · intro done
    rcases shaped.evaluateBottomUp_cases action state with ⟨last, _, visits, ended, same⟩ |
      ⟨_, _, _, _, _, _, _, _, _, _, _, stopped⟩
    · obtain rfl := Except.ok.inj (done.symm.trans same)
      exact ⟨last, visits, ended⟩
    · rw [stopped] at done
      cases done
  · rintro ⟨last, visits, _⟩
    exact shaped.evaluateBottomUp_of_visits visits

theorem Shaped.evaluateBottomUp_eq_error_iff {e : ε} :
    t.evaluateBottomUp action state = .error e ↔
      ∃ calls id later last final rest, s.preorder.reverse = calls ++ id :: later ∧
        t.Visits action (.initial t) state calls last final ∧ last.eligible = id :: rest ∧
        action final id = .error e := by
  constructor
  · intro stopped
    rcases shaped.evaluateBottomUp_cases action state with ⟨_, _, _, _, done⟩ |
      ⟨calls, id, later, last, final, rest, _, order, visits, top, failed, same⟩
    · rw [done] at stopped
      cases stopped
    · obtain rfl := Except.error.inj (stopped.symm.trans same)
      exact ⟨calls, id, later, last, final, rest, order, visits, top, failed⟩
  · rintro ⟨calls, id, later, last, final, rest, order, visits, top, failed⟩
    exact shaped.evaluateBottomUp_of_failure order visits top failed

/-- The parent of the node that is visited next has not counted down to zero. -/
theorem Visits.counted (visits : t.Visits action (.initial t) state calls last final)
    {id p : NodeId} {rest : List NodeId} (top : last.eligible = id :: rest)
    (up : t.parent id = some p) : ∃ left, last.remaining[p]? = some (left + 1) := by
  have whole : s.preorder = s.preorder ++ [] := (List.append_nil _).symm
  obtain ⟨u, split, awaits⟩ := visits.awaits shaped whole shaped.awaits_initial
  rcases List.eq_nil_or_concat u with rfl | ⟨u, x, rfl⟩
  · rw [awaits.eligible] at top
    cases top
  · rw [List.concat_eq_append] at split awaits
    rw [List.append_assoc, List.singleton_append] at split
    obtain ⟨others, next, _, counted⟩ := shaped.awaits_finish split awaits
    obtain ⟨rfl, _⟩ := List.cons.inj (next.symm.trans top)
    exact counted p up

end Outcome

/-- Bottom-up evaluation of a tree, whatever events it has received, visits the nodes in the
reverse of their preorder: each of them once, before those above it and behind those right of it. It
succeeds when all these visits do, and else ends with the first that fails. Whenever a child is
visited, its parent still counts it. -/
theorem evaluateBottomUp_visits (events : List ParseEvent) {σ ε : Type}
    (action : σ → NodeId → Except ε σ) (state : σ) :
    let t := ofEvents events
    ∃ s, t.Shaped s ∧
      (∀ x y, [x, y].Sublist s.preorder.reverse ↔ t.Precedes y x) ∧
      (∀ final, t.evaluateBottomUp action state = .ok final ↔
        ∃ last, t.Visits action (.initial t) state s.preorder.reverse last final ∧
          last.eligible = []) ∧
      (∀ e, t.evaluateBottomUp action state = .error e ↔
        ∃ calls id later last final rest, s.preorder.reverse = calls ++ id :: later ∧
          t.Visits action (.initial t) state calls last final ∧ last.eligible = id :: rest ∧
          action final id = .error e) ∧
      ((∀ state id, ∃ after, action state id = .ok after) →
        ∃ final, t.evaluateBottomUp action state = .ok final) ∧
      ∀ calls last final id rest p, t.Visits action (.initial t) state calls last final →
        last.eligible = id :: rest → t.parent id = some p →
        ∃ left, last.remaining[p]? = some (left + 1) := by
  intro t
  obtain ⟨s, shaped⟩ := (coherent_ofEvents events).shaped
  refine ⟨s, shaped, fun x y => ?_, fun _ => shaped.evaluateBottomUp_eq_ok_iff,
    fun _ => shaped.evaluateBottomUp_eq_error_iff, fun never => ?_,
    fun _ _ _ _ _ _ visits top up => visits.counted shaped top up⟩
  · rw [← shaped.sublist_preorder_iff, ← List.reverse_sublist, List.reverse_reverse]
    rfl
  · rcases shaped.evaluateBottomUp_cases action state with ⟨_, final, _, _, done⟩ |
      ⟨_, id, _, _, final, _, e, _, _, _, failed, _⟩
    · exact ⟨final, done⟩
    · obtain ⟨after, acted⟩ := never final id
      rw [acted] at failed
      cases failed

/-- The first child of the start symbol is expanded last, and its branch is visited last. -/
example : (evaluateBottomUp (ofEvents [.expand ⟨Symbol.start, ["a", "b"]⟩, .expand ⟨"a", ["c"]⟩])
    (fun seen id => (.ok (seen ++ [id]) : Except Unit (List NodeId))) []).toOption =
      some [3, 4, 2, 1, 0] := by
  decide +kernel

end TableAsm.Tree
