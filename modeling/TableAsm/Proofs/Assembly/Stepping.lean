import TableAsm.Proofs.Assembly.Standing

/-! What the action of a node makes of what its subtrees have placed. Most actions place nothing and
take nothing that has been placed. A line is placed, or taken over with another name on it; a block
takes over the lines of its children, and a repeated one makes copies of them. -/
namespace TableAsm.Assembler

open Action

/-- The subtrees of a node are done, and the node is not. -/
structure Ready (t : Tree) (s : Assembler) (id : NodeId) (below : Shape)
    (own names : List (List String)) : Prop where
  links : t.children id = below.tops
  nodup : (id :: below.preorder).Nodup
  room : id < s.payloads.size
  yields : Yields t s below own names.length
  carries : s.labels.Carries (own ++ names)
  fits : s.labels.Fits

/-- A subtree is done: it has placed some instructions before all others, and changed no payload
outside. -/
def Finishes (t : Tree) (s s' : Assembler) (id : NodeId) (below : Shape)
    (names : List (List String)) : Prop :=
  ∃ own, s'.labels.Carries (own ++ names) ∧ s'.labels.Fits ∧ Keeps (id :: below.preorder) s s' ∧
    Stands t s' id below own names.length

variable {t : Tree} {s s' m : Assembler} {id : NodeId} {below : Shape}
  {own own' names : List (List String)} {p : Payload}

theorem tops_subset (links : t.children id = below.tops) : t.children id ⊆ below.preorder :=
  fun _ mem => Shape.mem_preorder_of_mem_tops (links ▸ mem)

/-- When a node gets its payload, its subtree is done. -/
theorem Ready.finishes (ready : Ready t s id below own names) (keeps : Keeps below.preorder s m)
    (carries : m.labels.Carries (own' ++ names)) (fits : m.labels.Fits)
    (weight : own'.length = p.weight + m.weight below.preorder) (bears : t.Bears id p)
    (number : t.symbol id = "line" → ∀ i n, p = .line i n →
      ∃ j : Nat, j < own'.length ∧ n + (own'.length + names.length : Nat) = j)
    (line : m.weight below.preorder = 0 → t.Orderly → t.symbol id = "line" →
      ∀ i n, p = .line i n → ∃ text, t.Tells id text ∧ own' = [text.labels] ∧ i.name = text.name)
    (block : m.weight below.preorder = 0 → t.Orderly → t.symbol id = "start" →
      ∀ is, p = .block is → ∃ lines, t.Lists id lines ∧ own' = lines.map (·.labels) ∧
        List.Forall₂ (fun text (i : Instruction) => i.name = text.name) lines is) :
    Finishes t s (m.hold id p) id below names := by
  obtain ⟨absent, _⟩ := List.nodup_cons.mp ready.nodup
  have top : (m.hold id p).payload id = p := payload_hold_self p (keeps.size.symm ▸ ready.room)
  have inner : (m.hold id p).weight below.preorder = m.weight below.preorder :=
    weight_hold_of_not_mem absent
  refine ⟨own', carries, fits, ?_, ?_⟩
  · exact (keeps.mono (List.subset_cons_self _ _)).trans (.hold List.mem_cons_self m p)
  · refine ⟨?_, ?_, ?_, ?_, ?_⟩
    · rw [weight_cons, top, inner]
      exact weight
    · rw [top]
      exact bears
    · rw [top]
      exact number
    · rw [top, inner]
      exact line
    · rw [top, inner]
      exact block

/-- An action that places nothing and takes nothing that has been placed. -/
theorem Ready.finishes_light (ready : Ready t s id below own names)
    (sheds : Sheds (t.children id) s m) (light : p.weight = 0) (bears : t.Bears id p)
    (notLine : t.symbol id ≠ "line") (notStart : t.symbol id ≠ "start") :
    Finishes t s (m.hold id p) id below names := by
  refine ready.finishes (sheds.keeps.mono (tops_subset ready.links))
    (ready.carries.grows sheds.grows) ?_ ?_ bears (fun same => absurd same notLine)
    (fun _ _ same => absurd same notLine) fun _ _ same => absurd same notStart
  · have fits := ready.fits
    unfold Labels.Fits at fits ⊢
    rw [sheds.grows.counter]
    exact fits
  · rw [ready.yields.length, light, sheds.weight, Nat.zero_add]

/-- A line that is taken over, with another name on it or none, holds what it held. -/
theorem Ready.finishes_line (ready : Ready t s id below own names) {c : NodeId} {i j : Instruction}
    {n : Int} (sheds : Sheds (t.children id) s m) (symbol : t.symbol id = "line")
    (found : t.child? id "line" 0 = some c) (held : m.payload c = .line i n)
    (unchanged : s.payload c = .line i n) (same : j.name = i.name) {l : Labels}
    (carries : l.Carries (own' ++ names)) (fits : l.Fits) (length : own'.length = own.length)
    (tells : ∀ text, t.Tells c text → own = [text.labels] →
      ∃ text', t.Tells id text' ∧ own' = [text'.labels] ∧ text'.name = text.name) :
    Finishes t s ({ m.hold c .blank with labels := l }.hold id (.line j n)) id below names := by
  obtain ⟨mem, isLine⟩ := Tree.child?_mem found
  have inside := tops_subset ready.links mem
  obtain ⟨k, short, number, only⟩ := ready.yields.line (ready.links ▸ mem) isLine unchanged
  have total := weight_hold_blank (s := m) (List.nodup_cons.mp ready.nodup).2 inside
  rw [held, sheds.weight, ← ready.yields.length] at total
  have keeps := (sheds.keeps.mono (tops_subset ready.links)).trans (.hold inside m .blank)
  refine ready.finishes (m := { m.hold c .blank with labels := l })
    (keeps.trans (.relabel _ _ l)) carries fits ?_ ?_ ?_ ?_ ?_
  · rw [length, ← total, Nat.add_comm]
    rfl
  · constructor <;> intro other <;> simp [symbol] at other
  · rintro _ i' n' ⟨⟩
    exact ⟨k, length ▸ short, length ▸ number⟩
  · rintro none orderly _ i' n' ⟨⟩
    have one : own.length = 1 := by
      rw [← total]
      exact congrArg (· + 1) none
    obtain ⟨text, told, own_eq, name⟩ := only one orderly
    obtain ⟨text', told', own_eq', name'⟩ := tells text told own_eq
    exact ⟨text', told', own_eq', same.trans (name.trans name'.symm)⟩
  · intro _ _ other
    simp [symbol] at other

section Lines

variable {c d : NodeId} {i : Instruction} {n : Int} {l : Labels}

/-- An instruction is placed before all that its line has placed so far. -/
theorem Ready.finishes_placed (ready : Ready t s id below own names)
    (symbol : t.symbol id = "line") (found : t.child? id "instruction" 0 = some c)
    (held : s.payload c = .instruction i) (placed : s.labels.place = (l, .ok n)) :
    Finishes t s ({ s.hold c .blank with labels := l }.hold id (.line i n)) id below names := by
  obtain ⟨mem, isInstruction⟩ := Tree.child?_mem found
  have sheds : Sheds (t.children id) s (s.hold c .blank) :=
    .take ready.carries.sound mem (by rw [held]; rfl)
  obtain ⟨carries, _, fits, rfl⟩ := ready.carries.place placed
  have counter := carries.counter
  rw [List.length_cons, List.length_append] at counter
  have keeps := sheds.keeps.mono (tops_subset ready.links)
  have weight := sheds.weight below.preorder
  rw [← ready.yields.length] at weight
  rw [← List.cons_append] at carries
  refine ready.finishes (m := { s.hold c .blank with labels := l })
    (keeps.trans (.relabel _ _ l)) carries fits ?_ ?_ ?_ ?_ ?_
  · rw [List.length_cons, ← weight, Nat.add_comm]
    rfl
  · constructor <;> intro other <;> simp [symbol] at other
  · rintro _ i' n' ⟨⟩
    refine ⟨0, Nat.succ_pos _, ?_⟩
    rw [counter, List.length_cons]
    omega
  · rintro none _ _ i' n' ⟨⟩
    obtain rfl : own = [] := List.eq_nil_of_length_eq_zero (weight.symm.trans none)
    obtain ⟨_, _, _, stands⟩ := ready.yields.stands (ready.links ▸ mem)
    obtain ⟨word, vs, named, made⟩ := stands.bears.instruction isInstruction
    obtain rfl := Payload.instruction.inj (held.symm.trans made)
    exact ⟨_, .instruction found named, rfl, rfl⟩
  · intro _ _ other
    simp [symbol] at other

theorem Ready.finishes_modified (ready : Ready t s id below own names)
    (symbol : t.symbol id = "line") (plain : hasChild t id "instruction" = false)
    (modified : hasChild t id "modifier" = true) {modifier : Modifier}
    (found : t.child? id "modifier" 0 = some c) (held : s.payload c = .modifier modifier)
    (found' : t.child? id "line" 0 = some d) (held' : (s.hold c .blank).payload d = .line i n)
    {j : Instruction} (same : j.name = i.name) :
    Finishes t s (((s.hold c .blank).hold d .blank).hold id (.line j n)) id below names := by
  have sheds : Sheds (t.children id) s (s.hold c .blank) :=
    .take ready.carries.sound (Tree.child?_mem found).1 (by rw [held]; rfl)
  obtain ⟨_, unchanged⟩ := payload_of_hold_blank held' (by simp)
  exact ready.finishes_line sheds symbol found' held' unchanged same ready.carries ready.fits rfl
    fun text told own_eq => ⟨text, .modified plain modified found' told, own_eq, rfl⟩

theorem Ready.finishes_labelled (ready : Ready t s id below own names)
    (symbol : t.symbol id = "line") (plain : hasChild t id "instruction" = false)
    (unmodified : hasChild t id "modifier" = false) {name : String} {placeholder : Int}
    (found : t.child? id "LABEL" 0 = some c) (held : s.payload c = .word name placeholder)
    (found' : t.child? id "line" 0 = some d) (held' : (s.hold c .blank).payload d = .line i n)
    {position : Option Position} (defined : s.labels.define name n position = (l, .ok ())) :
    Finishes t s ({ (s.hold c .blank).hold d .blank with labels := l }.hold id (.line i n)) id
      below names := by
  obtain ⟨mem, isLabel⟩ := Tree.child?_mem found
  obtain ⟨mem', isLine⟩ := Tree.child?_mem found'
  have sheds : Sheds (t.children id) s (s.hold c .blank) :=
    .take ready.carries.sound mem (by rw [held]; rfl)
  obtain ⟨_, unchanged⟩ := payload_of_hold_blank held' (by simp)
  obtain ⟨k, short, number, _⟩ := ready.yields.line (ready.links ▸ mem') isLine unchanged
  have counter := ready.carries.counter
  rw [List.length_append] at counter
  have here : n = s.labels.counter + k := by omega
  rw [here] at defined
  have place : (own ++ names)[k]? = some own[k] := by
    rw [List.getElem?_append_left short, List.getElem?_eq_getElem short]
  obtain ⟨carries, _, counted, _⟩ := ready.carries.define place defined
  rw [List.set_append_left _ _ short] at carries
  have fits : l.Fits := by
    have fits := ready.fits
    unfold Labels.Fits at fits ⊢
    rw [counted]
    exact fits
  refine ready.finishes_line sheds symbol found' held' unchanged rfl carries fits
    (List.length_set ..) fun text told own_eq => ?_
  obtain ⟨_, _, _, stands⟩ := ready.yields.stands (ready.links ▸ mem)
  obtain ⟨_, word⟩ := stands.bears.label isLabel
  obtain ⟨rfl, _⟩ := Payload.word.inj (held.symm.trans word)
  refine ⟨_, .labelled plain unmodified found found' told, ?_, rfl⟩
  subst own_eq
  obtain rfl : k = 0 := Nat.lt_one_iff.mp short
  rfl

end Lines

/-- A line is placed when it is an instruction; other lines are taken over, with their labels. -/
theorem Ready.step_line (ready : Ready t s id below own names) (symbol : t.symbol id = "line")
    (run : (line t id).run s = (.ok p, m)) : Finishes t s (m.hold id p) id below names := by
  unfold line at run
  split at run
  · obtain ⟨_, s₁, taken, run⟩ := run_bind_eq_ok.mp run
    obtain ⟨i, s₂, read, run⟩ := run_bind_eq_ok.mp run
    obtain ⟨number, s₃, placed, run⟩ := run_bind_eq_ok.mp run
    obtain ⟨rfl, rfl⟩ := run_pure_eq_ok.mp run
    obtain ⟨c, found, rfl, rfl⟩ := run_take_eq_ok.mp taken
    obtain ⟨held, rfl⟩ := eq_of_asInstruction read
    obtain ⟨l, step, rfl⟩ := run_onLabels_eq_ok.mp placed
    exact ready.finishes_placed symbol found held step
  · rename_i plain
    have plain := Bool.eq_false_iff.mpr plain
    split at run
    · rename_i modified
      obtain ⟨_, s₁, taken, run⟩ := run_bind_eq_ok.mp run
      obtain ⟨modifier, s₂, read, run⟩ := run_bind_eq_ok.mp run
      obtain ⟨_, s₃, taken', run⟩ := run_bind_eq_ok.mp run
      obtain ⟨⟨i, n⟩, s₄, read', run⟩ := run_bind_eq_ok.mp run
      obtain ⟨c, found, rfl, rfl⟩ := run_take_eq_ok.mp taken
      obtain ⟨held, rfl⟩ := eq_of_asModifier read
      obtain ⟨d, found', rfl, rfl⟩ := run_take_eq_ok.mp taken'
      obtain ⟨held', rfl⟩ := eq_of_asLine read'
      cases modifier <;> obtain ⟨rfl, rfl⟩ := run_pure_eq_ok.mp run <;>
        exact ready.finishes_modified symbol plain modified found held found' held' rfl
    · rename_i unmodified
      have unmodified := Bool.eq_false_iff.mpr unmodified
      obtain ⟨c, s₁, located, run⟩ := run_bind_eq_ok.mp run
      obtain ⟨_, s₂, taken, run⟩ := run_bind_eq_ok.mp run
      obtain ⟨⟨name, n⟩, s₃, read, run⟩ := run_bind_eq_ok.mp run
      obtain ⟨_, s₄, taken', run⟩ := run_bind_eq_ok.mp run
      obtain ⟨⟨i, n⟩, s₅, read', run⟩ := run_bind_eq_ok.mp run
      obtain ⟨_, s₆, defined, run⟩ := run_bind_eq_ok.mp run
      obtain ⟨rfl, rfl⟩ := run_pure_eq_ok.mp run
      obtain ⟨found, rfl⟩ := run_child_eq_ok.mp located
      obtain ⟨rfl, rfl⟩ := run_takeFrom_eq_ok.mp taken
      obtain ⟨held, rfl⟩ := eq_of_asWord read
      obtain ⟨d, found', rfl, rfl⟩ := run_take_eq_ok.mp taken'
      obtain ⟨held', rfl⟩ := eq_of_asLine read'
      obtain ⟨l, step, rfl⟩ := run_onLabels_eq_ok.mp defined
      exact ready.finishes_labelled symbol plain unmodified found held found' held' step

section Blocks

variable {c d : NodeId} {i : Instruction} {n : Int} {l : Labels} {inner tail : List Instruction}

theorem weight_taken (s : Assembler) {nodes : List NodeId} (nodup : nodes.Nodup) (mem : c ∈ nodes)
    (mem' : d ∈ nodes) (other : d ≠ c) :
    ((s.hold c .blank).hold d .blank).weight nodes + (s.payload d).weight +
      (s.payload c).weight = s.weight nodes := by
  have first := weight_hold_blank (s := s) nodup mem
  have second := weight_hold_blank (s := s.hold c .blank) nodup mem'
  rw [payload_hold_blank, if_neg other] at second
  rw [second, first]

theorem keeps_taken (s : Assembler) {nodes : List NodeId} (mem : c ∈ nodes) (mem' : d ∈ nodes) :
    Keeps nodes s ((s.hold c .blank).hold d .blank) :=
  (Keeps.hold mem s .blank).trans (.hold mem' _ .blank)

theorem Ready.finishes_block (ready : Ready t s id below own names)
    (symbol : t.symbol id = "start") (found : t.child? id "line" 0 = some c)
    (held : s.payload c = .line i n) (found' : t.child? id "start" 0 = some d)
    (held' : (s.hold c .blank).payload d = .block tail) :
    Finishes t s (((s.hold c .blank).hold d .blank).hold id (.block (i :: tail))) id below
      names := by
  obtain ⟨mem, isLine⟩ := Tree.child?_mem found
  obtain ⟨mem', isStart⟩ := Tree.child?_mem found'
  obtain ⟨other, unchanged⟩ := payload_of_hold_blank held' (by simp)
  have inside := tops_subset ready.links
  have total := weight_taken s (List.nodup_cons.mp ready.nodup).2 (inside mem) (inside mem') other
  rw [held, unchanged, ← ready.yields.length] at total
  simp only [Payload.weight] at total
  refine ready.finishes (keeps_taken s (inside mem) (inside mem')) ready.carries ready.fits
    ?_ ?_ ?_ ?_ ?_
  · rw [← total, Payload.weight, List.length_cons]
    omega
  · constructor <;> intro same <;> simp [symbol] at same
  · intro same
    simp [symbol] at same
  · intro _ _ same
    simp [symbol] at same
  · rintro none orderly _ is ⟨⟩
    obtain ⟨before, between, after, order⟩ := orderly id c d symbol found found'
    rw [ready.links] at order
    obtain ⟨_, _, mid, mid', _, _, first, second, whole⟩ := ready.yields.pair order
    rw [held, unchanged] at whole
    simp only [Payload.weight] at whole
    obtain ⟨rfl, _, light, light'⟩ := whole (by omega)
    obtain ⟨text, told, rfl, name⟩ := first.line light orderly isLine i n held
    obtain ⟨lines, listed, rfl, names'⟩ := second.block light' orderly isStart tail unchanged
    exact ⟨text :: lines, .line found found' told listed, rfl, .cons name names'⟩

theorem Ready.finishes_loop (ready : Ready t s id below own names) {count : NodeId} {times : Int}
    (symbol : t.symbol id = "start") (plain : hasChild t id "line" = false)
    (counted : t.child? id "I_LITERAL" 0 = some count)
    (number : s.payload count = .value (.int times))
    (found : t.child? id "start" 0 = some c)
    (held : (s.hold count .blank).payload c = .block inner)
    (found' : t.child? id "start" 1 = some d)
    (held' : ((s.hold count .blank).hold c .blank).payload d = .block tail)
    {unrolled : List Instruction} {repetitions : List Repetition}
    (expanded : s.labels.expandRepeat inner times.toNat = (l, .ok unrolled)) :
    Finishes t s (Assembler.hold
      { ((s.hold count .blank).hold c .blank).hold d .blank with labels := l, repetitions }
      id (.block (unrolled ++ tail))) id below names := by
  obtain ⟨memN, isCount⟩ := Tree.child?_mem counted
  obtain ⟨mem, isStart⟩ := Tree.child?_mem found
  obtain ⟨mem', isStart'⟩ := Tree.child?_mem found'
  obtain ⟨_, unchanged⟩ := payload_of_hold_blank held (by simp)
  obtain ⟨other, still⟩ := payload_of_hold_blank held' (by simp)
  obtain ⟨_, unchanged'⟩ := payload_of_hold_blank still (by simp)
  have inside := tops_subset ready.links
  have sheds : Sheds (t.children id) s (s.hold count .blank) :=
    .take ready.carries.sound memN (by rw [number]; rfl)
  have total := weight_taken (s.hold count .blank) (List.nodup_cons.mp ready.nodup).2
    (inside mem) (inside mem') other
  rw [held, still, sheds.weight, ← ready.yields.length] at total
  simp only [Payload.weight] at total
  have carries := ready.carries
  rw [← List.take_append_drop inner.length own, List.append_assoc] at carries
  have length : inner.length = (own.take inner.length).length := by
    rw [List.length_take]
    omega
  obtain ⟨carried, _, fits, rfl⟩ := carries.expandRepeat ready.fits length expanded
  rw [← List.append_assoc] at carried
  have keeps := (sheds.keeps.mono inside).trans (keeps_taken _ (inside mem) (inside mem'))
  refine ready.finishes ⟨keeps.size, keeps.others⟩ carried fits ?_ ?_ ?_ ?_ ?_
  · show _ = Payload.weight _ +
      (((s.hold count .blank).hold c .blank).hold d .blank).weight below.preorder
    rw [Payload.weight, List.length_append, List.length_append, Labels.length_unrolledNames,
      List.length_flatten, List.map_replicate, List.sum_replicate_nat,
      Labels.length_resolveWithin, ← length, List.length_drop]
    omega
  · constructor <;> intro same <;> simp [symbol] at same
  · intro same
    simp [symbol] at same
  · intro _ _ same
    simp [symbol] at same
  · rintro none orderly _ is ⟨⟩
    obtain ⟨before, between, after, order⟩ := Tree.child?_order found found'
    rw [ready.links] at order
    obtain ⟨_, _, mid, mid', _, _, first, second, whole⟩ := ready.yields.pair order
    rw [unchanged, unchanged'] at whole
    simp only [Payload.weight] at whole
    have light : (((s.hold count .blank).hold c .blank).hold d .blank).weight below.preorder = 0 :=
      none
    obtain ⟨rfl, short, light, light'⟩ := whole (by omega)
    obtain ⟨lines, listed, rfl, same⟩ := first.block light orderly isStart inner unchanged
    obtain ⟨lines', listed', rfl, same'⟩ := second.block light' orderly isStart' tail unchanged'
    obtain ⟨_, _, _, stands⟩ := ready.yields.stands (ready.links ▸ memN)
    obtain ⟨n, read, spelled⟩ := stands.bears.integer isCount
    obtain rfl := Value.int.inj (Payload.value.inj (number.symm.trans spelled))
    refine ⟨_, .loop plain counted read found found' listed listed', ?_,
      List.rel_append (Tree.forall₂_unrolledLines s.labels same times.toNat) same'⟩
    rw [List.map_append, Tree.map_labels_unrolledLines, ← short, List.take_left, List.drop_left]

/-- A payload that holds as much as has been placed, or all that its child held. -/
theorem Ready.finishes_other (ready : Ready t s id below own names) (keeps : Keeps below.preorder s m)
    (labels : m.labels = s.labels) (weight : own.length = p.weight + m.weight below.preorder)
    (bears : t.Bears id p) (notLine : t.symbol id ≠ "line") (notStart : t.symbol id ≠ "start") :
    Finishes t s (m.hold id p) id below names :=
  ready.finishes keeps (labels ▸ ready.carries) (labels ▸ ready.fits) weight bears
    (fun same => absurd same notLine) (fun _ _ same => absurd same notLine)
    fun _ _ same => absurd same notStart

end Blocks

theorem eq_of_repeatCount {c : NodeId} {times : Nat}
    (run : (repeatCount t c).run s = (.ok times, m)) :
    ∃ n : Int, s.payload c = .value (.int n) ∧ times = n.toNat ∧ m = s.hold c .blank := by
  obtain ⟨_, s₁, taken, run⟩ := run_bind_eq_ok.mp run
  obtain ⟨v, s₂, read, run⟩ := run_bind_eq_ok.mp run
  obtain ⟨rfl, rfl⟩ := run_takeFrom_eq_ok.mp taken
  obtain ⟨held, rfl⟩ := eq_of_asValue read
  cases v with
  | int n =>
    simp only at run
    split at run
    · obtain ⟨rfl, rfl⟩ := run_pure_eq_ok.mp run
      exact ⟨n, held, rfl, rfl⟩
    · cases run
  | _ => cases run

/-- A block takes over a line and a block, or makes copies of a block and takes over another one,
or is empty. -/
theorem Ready.step_block (ready : Ready t s id below own names) (symbol : t.symbol id = "start")
    (run : (block t id).run s = (.ok p, m)) : Finishes t s (m.hold id p) id below names := by
  unfold block at run
  split at run
  · obtain ⟨_, s₁, taken, run⟩ := run_bind_eq_ok.mp run
    obtain ⟨⟨i, n⟩, s₂, read, run⟩ := run_bind_eq_ok.mp run
    obtain ⟨_, s₃, taken', run⟩ := run_bind_eq_ok.mp run
    obtain ⟨tail, s₄, read', run⟩ := run_bind_eq_ok.mp run
    obtain ⟨rfl, rfl⟩ := run_pure_eq_ok.mp run
    obtain ⟨c, found, rfl, rfl⟩ := run_take_eq_ok.mp taken
    obtain ⟨held, rfl⟩ := eq_of_asLine read
    obtain ⟨d, found', rfl, rfl⟩ := run_take_eq_ok.mp taken'
    obtain ⟨held', rfl⟩ := eq_of_asBlock read'
    exact ready.finishes_block symbol found held found' held'
  · rename_i plain
    have plain := Bool.eq_false_iff.mpr plain
    split at run
    · obtain ⟨count, s₁, located, run⟩ := run_bind_eq_ok.mp run
      obtain ⟨times, s₂, counts, run⟩ := run_bind_eq_ok.mp run
      obtain ⟨_, s₃, taken, run⟩ := run_bind_eq_ok.mp run
      obtain ⟨inner, s₄, read, run⟩ := run_bind_eq_ok.mp run
      obtain ⟨_, s₅, taken', run⟩ := run_bind_eq_ok.mp run
      obtain ⟨tail, s₆, read', run⟩ := run_bind_eq_ok.mp run
      obtain ⟨_, s₇, recorded, run⟩ := run_bind_eq_ok.mp run
      obtain ⟨unrolled, s₈, expanded, run⟩ := run_bind_eq_ok.mp run
      obtain ⟨rfl, rfl⟩ := run_pure_eq_ok.mp run
      obtain ⟨counted, rfl⟩ := run_child_eq_ok.mp located
      obtain ⟨n, number, rfl, rfl⟩ := eq_of_repeatCount counts
      obtain ⟨c, found, rfl, rfl⟩ := run_take_eq_ok.mp taken
      obtain ⟨held, rfl⟩ := eq_of_asBlock read
      obtain ⟨d, found', rfl, rfl⟩ := run_take_eq_ok.mp taken'
      obtain ⟨held', rfl⟩ := eq_of_asBlock read'
      rw [run_modify] at recorded
      cases recorded
      obtain ⟨l, step, rfl⟩ := run_onLabels_eq_ok.mp expanded
      exact ready.finishes_loop symbol plain counted number found held found' held' step
    · rename_i unrepeated
      have unrepeated := Bool.eq_false_iff.mpr unrepeated
      split at run
      · obtain ⟨rfl, rfl⟩ := run_pure_eq_ok.mp run
        have weight := ready.yields.length
        refine ready.finishes (.refl _ _) ready.carries ready.fits ?_ ?_ ?_ ?_ ?_
        · rw [weight, Payload.weight, List.length_nil, Nat.zero_add]
        · constructor <;> intro same <;> simp [symbol] at same
        · intro same
          simp [symbol] at same
        · intro _ _ same
          simp [symbol] at same
        · rintro none _ _ is ⟨⟩
          rw [none] at weight
          obtain rfl := List.eq_nil_of_length_eq_zero weight
          exact ⟨[], .done plain unrepeated, rfl, .nil⟩
      · cases run

theorem Ready.step_whole (ready : Ready t s id below own names) (symbol : t.symbol id = Symbol.root)
    (run : (whole t id).run s = (.ok p, m)) : Finishes t s (m.hold id p) id below names := by
  have bears : t.Bears id p := by
    constructor <;> intro same <;> exact absurd (symbol.symm.trans same) (by decide)
  have notLine : t.symbol id ≠ "line" := by rw [symbol]; decide
  have notStart : t.symbol id ≠ "start" := by rw [symbol]; decide
  unfold whole at run
  split at run
  · rename_i c first
    obtain ⟨_, s₁, taken, run⟩ := run_bind_eq_ok.mp run
    obtain ⟨is, s₂, read, run⟩ := run_bind_eq_ok.mp run
    obtain ⟨rfl, rfl⟩ := run_pure_eq_ok.mp run
    obtain ⟨rfl, rfl⟩ := run_takeFrom_eq_ok.mp taken
    obtain ⟨held, rfl⟩ := eq_of_asBlock read
    have mem := tops_subset ready.links (List.mem_of_mem_head? first)
    have total := weight_hold_blank (s := s) (List.nodup_cons.mp ready.nodup).2 mem
    rw [held, ← ready.yields.length] at total
    exact ready.finishes_other (.hold mem s .blank) rfl (by omega) bears notLine notStart
  · obtain ⟨rfl, rfl⟩ := run_pure_eq_ok.mp run
    refine ready.finishes_other (.refl _ _) rfl ?_ bears notLine notStart
    rw [ready.yields.length, Payload.weight, List.length_nil, Nat.zero_add]

/-- A node without action places nothing, and nothing is put on it. -/
theorem Ready.finishes_idle (ready : Ready t s id below own names) (blank : s.payload id = .blank)
    (bears : t.Bears id .blank) : Finishes t s s id below names := by
  refine ⟨own, ready.carries, ready.fits, .refl _ s, ?_, ?_, ?_, ?_, ?_⟩
  · rw [weight_cons, blank, ready.yields.length]
    exact (Nat.zero_add _).symm
  · rwa [blank]
  · intro _ i n held
    exact absurd (blank.symm.trans held) (by simp)
  · intro _ _ _ i n held
    exact absurd (blank.symm.trans held) (by simp)
  · intro _ _ _ is held
    exact absurd (blank.symm.trans held) (by simp)

theorem bears_of_ne (word : t.symbol id ≠ "IDENTIFIER") (label : t.symbol id ≠ "LABEL")
    (integer : t.symbol id ≠ "I_LITERAL") (instruction : t.symbol id ≠ "instruction") :
    t.Bears id p :=
  ⟨fun same => absurd same word, fun same => absurd same label, fun same => absurd same integer,
    fun same => absurd same instruction⟩

theorem Ready.step_instruction (ready : Ready t s id below own names)
    (symbol : t.symbol id = "instruction") (run : (instruction t id).run s = (.ok p, m)) :
    Finishes t s (m.hold id p) id below names := by
  obtain ⟨sheds, c, name, n, vs, found, held, rfl⟩ := sheds_of_instruction ready.carries.sound run
  obtain ⟨mem, isWord⟩ := Tree.child?_mem found
  obtain ⟨_, _, _, stands⟩ := ready.yields.stands (ready.links ▸ mem)
  obtain ⟨_, word⟩ := stands.bears.word isWord
  obtain ⟨rfl, _⟩ := Payload.word.inj (held.symm.trans word)
  refine ready.finishes_light sheds rfl ⟨?_, ?_, ?_, fun _ => ⟨c, vs, found, rfl⟩⟩ ?_ ?_ <;>
    simp [symbol]

/-- The action of a node, run to its end, finishes its subtree. -/
theorem Ready.step_action (ready : Ready t s id below own names) {action : Action Payload}
    (given : forNode? t id = some action) (run : action.run s = (.ok p, m)) :
    Finishes t s (m.hold id p) id below names := by
  have sound := ready.carries.sound
  unfold forNode? at given
  simp only at given
  split at given
  case h_1 symbol =>
    obtain rfl := Option.some.inj given
    exact ready.step_whole symbol run
  case h_2 symbol =>
    obtain rfl := Option.some.inj given
    exact ready.step_block symbol run
  case h_3 symbol =>
    obtain rfl := Option.some.inj given
    exact ready.step_line symbol run
  case h_4 symbol =>
    obtain rfl := Option.some.inj given
    exact ready.step_instruction symbol run
  case h_5 symbol | h_6 symbol =>
    obtain rfl := Option.some.inj given
    obtain ⟨sheds, light⟩ := sheds_of_operands sound run
    refine ready.finishes_light sheds light (bears_of_ne ?_ ?_ ?_ ?_) ?_ ?_ <;> simp [symbol]
  case h_7 symbol =>
    obtain rfl := Option.some.inj given
    obtain ⟨sheds, light⟩ := sheds_of_modifier sound run
    refine ready.finishes_light sheds light (bears_of_ne ?_ ?_ ?_ ?_) ?_ ?_ <;> simp [symbol]
  case h_8 symbol =>
    obtain rfl := Option.some.inj given
    obtain ⟨sheds, light⟩ := sheds_of_anyValue sound run
    refine ready.finishes_light sheds light (bears_of_ne ?_ ?_ ?_ ?_) ?_ ?_ <;> simp [symbol]
  case h_9 symbol =>
    obtain rfl := Option.some.inj given
    obtain ⟨sheds, n, rfl⟩ := sheds_of_word (t.children id) sound run
    refine ready.finishes_light sheds rfl ⟨fun _ => ⟨n, rfl⟩, ?_, ?_, ?_⟩ ?_ ?_ <;> simp [symbol]
  case h_10 symbol =>
    obtain rfl := Option.some.inj given
    obtain ⟨sheds, n, rfl⟩ := sheds_of_word (t.children id) sound run
    refine ready.finishes_light sheds rfl ⟨?_, fun _ => ⟨n, rfl⟩, ?_, ?_⟩ ?_ ?_ <;> simp [symbol]
  case h_11 symbol =>
    obtain rfl := Option.some.inj given
    obtain ⟨sheds, n, read, rfl⟩ := sheds_of_literal (t.children id) sound run
    refine ready.finishes_light sheds rfl ⟨?_, ?_, fun _ => ⟨n, read, rfl⟩, ?_⟩ ?_ ?_ <;>
      simp [symbol]
  case h_12 symbol | h_13 symbol =>
    obtain rfl := Option.some.inj given
    obtain ⟨sheds, a, _, rfl⟩ := sheds_of_literal (t.children id) sound run
    refine ready.finishes_light sheds rfl (bears_of_ne ?_ ?_ ?_ ?_) ?_ ?_ <;> simp [symbol]
  case h_14 => cases given

theorem bears_of_idle (idle : forNode? t id = none) : t.Bears id p := by
  unfold forNode? at idle
  simp only at idle
  split at idle
  case h_14 => refine bears_of_ne ?_ ?_ ?_ ?_ <;> assumption
  all_goals cases idle

theorem Ready.step (ready : Ready t s id below own names) (blank : s.payload id = .blank)
    (run : (perform t id).run s = (.ok (), s')) : Finishes t s s' id below names := by
  unfold perform at run
  split at run
  · rename_i idle
    obtain ⟨_, rfl⟩ := run_pure_eq_ok.mp run
    exact ready.finishes_idle blank (bears_of_idle idle)
  · rename_i action given
    obtain ⟨p, m, acted, placed⟩ := run_bind_eq_ok.mp run
    rw [run_put] at placed
    cases placed
    exact ready.step_action given acted

/-- The actions of a row of subtrees, run to their end before others are run, place instructions
subtree by subtree before all that has been placed. -/
theorem yields_of_performAll {parent : Option NodeId} {shape : Shape} (fits : t.Fits parent shape)
    (nodup : shape.preorder.Nodup) (room : s.Room shape.preorder)
    (blank : ∀ x ∈ shape.preorder, s.payload x = .blank) (carries : s.labels.Carries names)
    (short : s.labels.Fits) (run : (performAll t shape).run s = (.ok (), s')) :
    ∃ own, s'.labels.Carries (own ++ names) ∧ s'.labels.Fits ∧ Keeps shape.preorder s s' ∧
      Yields t s' shape own names.length := by
  induction shape generalizing parent s s' names with
  | nil =>
    obtain ⟨_, rfl⟩ := run_pure_eq_ok.mp run
    exact ⟨[], carries, short, .refl _ _, .nil _⟩
  | node id below rest ihb ih =>
    obtain ⟨inside, _, links, fitsB, fitsR⟩ := fits
    obtain ⟨notTop, nodupB, nodupR, disjoint⟩ : id ∉ below.preorder ++ rest.preorder ∧
        below.preorder.Nodup ∧ rest.preorder.Nodup ∧
        below.preorder.Disjoint rest.preorder := by
      simpa [List.nodup_append'] using nodup
    simp only [Shape.preorder, List.mem_cons, List.mem_append, not_or] at notTop room blank
    obtain ⟨_, s₁, later, run⟩ := run_bind_eq_ok.mp run
    obtain ⟨_, s₂, inner, top⟩ := run_bind_eq_ok.mp run
    -- the subtrees to the right come first, and then those below the node
    obtain ⟨others, carries, short, keepsR, yieldsR⟩ := ih fitsR nodupR
      (fun x mem => room x (by simp [mem])) (fun x mem => blank x (by simp [mem])) carries short
      later
    obtain ⟨own, carries, short, keepsB, yieldsB⟩ := ihb fitsB nodupB
      (fun x mem => keepsR.size.symm ▸ room x (by simp [mem]))
      (fun x mem => (keepsR.others x (disjoint mem)).trans (blank x (by simp [mem]))) carries short
      inner
    have ready : Ready t s₂ id below own (others ++ names) :=
      ⟨links, List.nodup_cons.mpr ⟨notTop.1, nodupB⟩,
        keepsB.size.symm ▸ keepsR.size.symm ▸ room id (by simp), yieldsB, carries, short⟩
    have free : s₂.payload id = .blank :=
      (keepsB.others id notTop.1).trans ((keepsR.others id notTop.2).trans (blank id (by simp)))
    obtain ⟨first, carries, short, keepsT, stands⟩ := ready.step free top
    rw [← List.append_assoc] at carries
    refine ⟨first ++ others, carries, short, ?_, .node ?_ ?_⟩
    · have subR : rest.preorder ⊆ (Shape.node id below rest).preorder :=
        fun x mem => List.mem_cons_of_mem id (List.mem_append_right _ mem)
      have subT : id :: below.preorder ⊆ (Shape.node id below rest).preorder :=
        List.cons_subset_cons id (List.subset_append_left _ _)
      have subB : below.preorder ⊆ (Shape.node id below rest).preorder :=
        fun x mem => subT (List.mem_cons_of_mem id mem)
      exact (keepsR.mono subR).trans ((keepsB.mono subB).trans (keepsT.mono subT))
    · rwa [List.length_append] at stands
    · refine yieldsR.congr fun x mem => ?_
      rw [keepsT.others x, keepsB.others x fun below => disjoint below mem]
      rw [List.mem_cons, not_or]
      exact ⟨fun same => notTop.2 (same ▸ mem), fun below => disjoint below mem⟩

end TableAsm.Assembler
