import TableAsm.Proofs.Language.Performing

/-! The assembler translates the syntax that a tree holds. For every production, the actions along
a node for it do what the translation of its syntax does; so the program of a tree is the program
of the block that it holds. -/
namespace TableAsm.Language

open Action Translation

section Leaves

variable {t : Tree} {id : NodeId}

/-- The symbols of leaves that mean nothing by themselves. -/
def plainKinds : List String :=
  [",", ";", "@", "(", ")", "\x7b", "\x7d", "KW_repeat", "KW_annotation", "KW_property", "EMPTY"]

theorem performTree_plain (plain : t.symbol id ∈ plainKinds) :
    performTree t id .nil = pure () := by
  have none : forNode? t id = none := by
    simp only [plainKinds, List.mem_cons, List.not_mem_nil, or_false] at plain
    unfold forNode?
    rcases plain with h | h | h | h | h | h | h | h | h | h | h <;> rw [h] <;> rfl
  rw [performTree_nil, perform, none]

/-- A leaf whose action runs an operation on the labels. -/
theorem translates_leaf {α : Type} {f : Labels → Labels × Except LabelError α} {P : α → Payload}
    (action : forNode? t id = some (Action.onLabels f >>= fun a => pure (P a))) :
    Translates t id .nil (Translation.onLabels f) P := by
  intro s room
  refine .finish_onLabels (.refl _ s) room List.mem_cons_self s rfl (.refl _ s) ?_
  rw [performTree_nil, perform, action]
  simp only [bind_assoc, pure_bind]

theorem translates_identifier {x : Token} (symbol : t.symbol id = "IDENTIFIER")
    (raw : t.raw id = some x.lexeme) (position : t.position id = some x.position) :
    Translates t id .nil (reference x.lexeme x) fun n => .word x.lexeme n := by
  refine translates_leaf ?_
  rw [forNode?, symbol, raw, position]
  rfl

theorem translates_label {x : Token} (symbol : t.symbol id = "LABEL")
    (raw : t.raw id = some x.lexeme) (position : t.position id = some x.position) :
    Translates t id .nil (reference (labelName x.lexeme) x) fun n =>
      .word (labelName x.lexeme) n := by
  refine translates_leaf ?_
  rw [forNode?, symbol, raw, position]
  rfl

/-- A leaf whose action reads a literal. -/
theorem translates_literal {x : Token} {α : Type} {make : α → Value} {read : Option α}
    {fault : LiteralFault}
    (action : forNode? t id = some (Action.literal make read fault x.lexeme (some x.position))) :
    Translates t id .nil (Translation.literal make read fault x) .value := by
  intro s room
  rw [performTree_nil, perform, action]
  cases read with
  | none => exact ⟨s, rfl⟩
  | some a => exact .finish (.refl _ s) room List.mem_cons_self [] (List.nil_subset _) rfl

end Leaves

section Values

variable {t : Tree} {id : NodeId} {below : Shape}

/-- A node that takes the value of its only child; that of a word is its placeholder. -/
theorem translates_anyval {c : NodeId} (symbol : t.symbol id = "anyval")
    (links : t.children id = [c]) {α : Type} {m : Translation α}
    {P : α → Payload} {g : α → Value} (child : Translates t c .nil m P)
    (meaning : ∀ a, P a = .value (g a) ∨ ∃ text n, P a = .word text n ∧ g a = .int n) :
    Translates t id (.node c .nil .nil) (m >>= fun a => pure (g a)) .value := by
  intro s room
  have action : perform t id = anyValue t id >>= put id := by
    rw [perform, forNode?, symbol]
    rfl
  have sub : [c] ⊆ id :: (Shape.node c .nil .nil).preorder := by simp
  rw [performTree, performAll_node, performAll_nil, pure_bind]
  refine Performs.bind (child s (room.sub sub)) fun s' a held => ?_
  obtain ⟨payload, keeps⟩ := held
  refine .finish (keeps.mono sub) room List.mem_cons_self [c] sub ?_
  rw [action, anyValue, links]
  simp only [List.head?_cons, run_bind, run_takeFrom, payload]
  rcases meaning a with eq | ⟨text, n, eq, int⟩
  · rw [eq]
    rfl
  · rw [eq, int]
    rfl

/-- The subtree of a value. -/
theorem translates_value {v : Token} (mem : v.kind ∈ valueKinds) (symbol : t.symbol id = "anyval")
    (links : t.children id = below.tops) (holds : t.Holds below (.token v .nil)) :
    Translates t id below (value v) .value := by
  obtain _ | _ | @⟨c, _, _, _, kind, raw, position, tail⟩ := holds
  cases tail
  simp only [valueKinds, List.mem_cons, List.not_mem_nil, or_false] at mem
  -- a literal's node hands its value on
  have hands : ∀ {m : Translation Value}, Translates t c .nil m .value →
      Translates t id (.node c .nil .nil) m .value := by
    intro m leaf
    have node := translates_anyval symbol links leaf (g := fun w => w) fun w => Or.inl rfl
    rwa [bind_pure] at node
  rcases mem with h | h | h | h <;> simp only [value, h, String.reduceEq, if_true, if_false]
  · exact translates_anyval symbol links (translates_identifier (kind.trans h) raw position)
      fun n => Or.inr ⟨_, n, rfl, rfl⟩
  · refine hands (translates_literal ?_)
    rw [forNode?, kind.trans h, raw, position]
    rfl
  · refine hands (translates_literal ?_)
    rw [forNode?, kind.trans h, raw, position]
    rfl
  · refine hands (translates_literal ?_)
    rw [forNode?, kind.trans h, raw, position]
    rfl

/-- The action of a node with a value and further values. -/
theorem run_operands {a m : NodeId} {s : Assembler} {v : Value} {vs : List Value}
    (symbol : t.symbol id = "operands" ∨ t.symbol id = "more_operands")
    (first : ((t.children id).filter (t.symbol · == "anyval"))[0]? = some a)
    (further : ((t.children id).filter (t.symbol · == "more_operands"))[0]? = some m)
    (ne : m ≠ a) (valueOf : s.payload a = .value v) (valuesOf : s.payload m = .operands vs) :
    (perform t id).run s =
      (.ok (), (s.clear [a, m]).hold id (.operands (v :: vs))) := by
  have action : perform t id = operands t id >>= put id := by
    rw [perform, forNode?]
    rcases symbol with h | h <;> rw [h] <;> rfl
  have has : hasChild t id "anyval" = true := by
    rw [hasChild, List.any_eq_true]
    have mem := List.mem_of_getElem? first
    exact ⟨a, (List.mem_filter.mp mem).1, (List.mem_filter.mp mem).2⟩
  have kept : (s.hold a .blank).payload m = .operands vs := by
    rw [Assembler.payload_hold_of_ne _ _ ne, valuesOf]
  simp only [action, operands, has, if_true, run_bind, run_take first, valueOf, asValue, run_pure,
    run_take further, kept, asOperands, run_put, Assembler.clear]

/-- The action of a node without values. -/
theorem run_no_operands {e : NodeId} {s : Assembler}
    (symbol : t.symbol id = "operands" ∨ t.symbol id = "more_operands")
    (links : t.children id = [e]) (empty : t.symbol e = Symbol.empty) :
    (perform t id).run s = (.ok (), s.hold id (.operands [])) := by
  have action : perform t id = operands t id >>= put id := by
    rw [perform, forNode?]
    rcases symbol with h | h <;> rw [h] <;> rfl
  have none : hasChild t id "anyval" = false := by
    rw [hasChild, links, List.any_cons, empty]
    rfl
  rw [action, operands, none]
  rfl

theorem translates_no_values {e : NodeId}
    (symbol : t.symbol id = "operands" ∨ t.symbol id = "more_operands")
    (links : t.children id = [e]) (empty : t.symbol e = Symbol.empty) :
    Translates t id (.node e .nil .nil) (values []) .operands := by
  intro s room
  have plain : t.symbol e ∈ plainKinds := by rw [empty]; decide
  rw [performTree, performAll_node, performAll_nil, pure_bind, performTree_plain plain, pure_bind]
  exact .finish (.refl _ s) room List.mem_cons_self [] (List.nil_subset _)
    (run_no_operands symbol links empty)

/-- The subtree of values that each stand behind a comma. -/
theorem translates_further {f : Forest} {vs : List Token} (reads : ReadsFurther f vs)
    (symbol : t.symbol id = "more_operands") (links : t.children id = below.tops)
    (holds : t.Holds below f) (nodup : (id :: below.preorder).Nodup) :
    Translates t id below (values vs) .operands := by
  induction reads generalizing id below with
  | none =>
    obtain _ | @⟨e, _, _, empty, tail⟩ := holds
    cases tail
    exact translates_no_values (Or.inr symbol) links empty
  | @value comma v vs _ _ _ isComma mem reads ih =>
    obtain _ | _ | @⟨c, _, _, _, kind, _, _, holds⟩ := holds
    obtain _ | _ | _ | @⟨a, ab, _, _, _, _, symbolA, linksA, holdsA, holds⟩ := holds
    obtain _ | _ | _ | @⟨m, mb, _, _, _, _, symbolM, linksM, holdsM, tail⟩ := holds
    cases tail
    have plain : t.symbol c ∈ plainKinds := by rw [kind, isComma]; decide
    simp only [Shape.preorder, List.nil_append, List.append_nil, Translates] at nodup ⊢
    obtain ⟨_, nodupM, apart, subA, subM⟩ := two_subtrees [id, c] [] _ nodup
    intro s room
    rw [performTree]
    simp only [performAll_node, performAll_nil, pure_bind, bind_assoc, performTree_plain plain]
    refine .pair room subA subM (apart m List.mem_cons_self) (ih symbolM linksM holdsM nodupM)
      (translates_value mem symbolA linksA holdsA) fun s' ws w payloadM payloadA keeps => ?_
    refine .finish keeps room List.mem_cons_self [a, m] (by simp)
      (run_operands (Or.inr symbol) ?_ ?_ ?_ payloadA payloadM)
    · simp [links, kind, isComma, symbolA]
    · simp [links, kind, isComma, symbolA, symbolM]
    · rintro rfl
      exact apart m List.mem_cons_self List.mem_cons_self

/-- The subtree of an instruction's values. -/
theorem translates_values {f : Forest} {vs : List Token} (reads : ReadsValues f vs)
    (symbol : t.symbol id = "operands") (links : t.children id = below.tops)
    (holds : t.Holds below f) (nodup : (id :: below.preorder).Nodup) :
    Translates t id below (values vs) .operands := by
  cases reads with
  | none =>
    obtain _ | @⟨e, _, _, empty, tail⟩ := holds
    cases tail
    exact translates_no_values (Or.inl symbol) links empty
  | @value v vs _ _ _ mem further =>
    obtain _ | _ | _ | @⟨a, ab, _, _, _, _, symbolA, linksA, holdsA, holds⟩ := holds
    obtain _ | _ | _ | @⟨m, mb, _, _, _, _, symbolM, linksM, holdsM, tail⟩ := holds
    cases tail
    simp only [Shape.preorder, List.append_nil, Translates] at nodup ⊢
    obtain ⟨_, nodupM, apart, subA, subM⟩ := two_subtrees [id] [] _ nodup
    intro s room
    rw [performTree]
    simp only [performAll_node, performAll_nil, pure_bind, bind_assoc]
    refine .pair room subA subM (apart m List.mem_cons_self)
      (translates_further further symbolM linksM holdsM nodupM)
      (translates_value mem symbolA linksA holdsA) fun s' ws w payloadM payloadA keeps => ?_
    refine .finish keeps room List.mem_cons_self [a, m] (by simp)
      (run_operands (Or.inl symbol) ?_ ?_ ?_ payloadA payloadM)
    · simp [links, symbolA]
    · simp [links, symbolA, symbolM]
    · rintro rfl
      exact apart m List.mem_cons_self List.mem_cons_self

end Values

section Lines

variable {t : Tree} {id : NodeId} {below : Shape}

/-- The subtree of an instruction. -/
theorem translates_instruction {name : Token} {vs : List Token} {f : Forest} {rhs : List String}
    (kind : name.kind = "IDENTIFIER") (reads : ReadsValues f vs)
    (symbol : t.symbol id = "instruction") (links : t.children id = below.tops)
    (holds : t.Holds below (.token name (.node ⟨"operands", rhs⟩ f .nil)))
    (nodup : (id :: below.preorder).Nodup) :
    Translates t id below (values vs >>= fun ws => reference name.lexeme name >>= fun _ =>
      pure (Instruction.bare name.lexeme ws)) .instruction := by
  obtain _ | _ | @⟨n, _, _, _, symbolN, raw, position, holds⟩ := holds
  obtain _ | _ | _ | @⟨o, ob, _, _, _, _, symbolO, linksO, holdsO, tail⟩ := holds
  cases tail
  simp only [Shape.preorder, List.append_nil, List.nil_append, Translates] at nodup ⊢
  obtain ⟨_, nodupO, apart, subN, subO⟩ := two_subtrees [id] [] [] nodup
  intro s room
  rw [performTree]
  simp only [performAll_node, performAll_nil, pure_bind, bind_assoc]
  refine .pair room subN subO (apart o List.mem_cons_self)
    (translates_values reads symbolO linksO holdsO nodupO)
    (translates_identifier (symbolN.trans kind) raw position)
    fun s' ws n' payloadO payloadN keeps => ?_
  have ne : o ≠ n := by
    rintro rfl
    exact apart o List.mem_cons_self List.mem_cons_self
  have action : perform t id = Action.instruction t id >>= put id := by
    rw [perform, forNode?, symbol]
    rfl
  have word : ((t.children id).filter (t.symbol · == "IDENTIFIER"))[0]? = some n := by
    simp [links, symbolN, kind]
  have operands : ((t.children id).filter (t.symbol · == "operands"))[0]? = some o := by
    simp [links, symbolN, kind, symbolO]
  refine .finish keeps room List.mem_cons_self [n, o] (by simp) ?_
  have kept : (s'.hold n .blank).payload o = .operands ws := by
    rw [Assembler.payload_hold_of_ne _ _ ne, payloadO]
  simp only [action, Action.instruction, run_bind, run_take word, payloadN, asWord, run_pure,
    run_take operands, kept, asOperands, run_put, Assembler.clear]

/-- What a modifier does to an instruction. -/
def modify (i : Instruction) : Modifier → Instruction
  | .mark name => i.annotate name
  | .property key v => i.putProperty key v

theorem translates_annotation {k n : Token} (isKey : k.kind = "KW_annotation")
    (isName : n.kind = "IDENTIFIER") (symbol : t.symbol id = "modifier")
    (links : t.children id = below.tops) (holds : t.Holds below (.token k (.token n .nil))) :
    Translates t id below (reference n.lexeme n >>= fun _ => pure (Modifier.mark n.lexeme))
      .modifier := by
  obtain _ | _ | @⟨c, _, _, _, symbolC, _, _, holds⟩ := holds
  obtain _ | _ | @⟨x, _, _, _, symbolX, raw, position, tail⟩ := holds
  cases tail
  have plain : t.symbol c ∈ plainKinds := by rw [symbolC, isKey]; decide
  intro s room
  rw [performTree]
  simp only [performAll_node, performAll_nil, pure_bind, bind_assoc, performTree_plain plain]
  have sub : [x] ⊆ id :: (Shape.node c .nil (.node x .nil .nil)).preorder := by simp
  refine Performs.bind (translates_identifier (symbolX.trans isName) raw position s (room.sub sub))
    fun s' n' held => ?_
  obtain ⟨payload, keeps⟩ := held
  have action : perform t id = Action.modifier t id >>= put id := by
    rw [perform, forNode?, symbol]
    rfl
  have word : ((t.children id).filter (t.symbol · == "IDENTIFIER"))[0]? = some x := by
    simp [links, symbolC, isKey, symbolX, isName]
  have noProperty : hasChild t id (Symbol.keyword "property") = false := by
    simp [hasChild, links, symbolC, isKey, symbolX, isName, Symbol.keyword]
  have annotation : hasChild t id (Symbol.keyword "annotation") = true := by
    simp [hasChild, links, symbolC, isKey, Symbol.keyword]
  refine .finish (keeps.mono sub) room List.mem_cons_self [x] sub ?_
  simp only [action, Action.modifier, run_bind, run_take word, payload, asWord, run_pure,
    noProperty, annotation, if_true, run_put, Assembler.clear]
  rfl

theorem translates_property {k n v : Token} {kind : List String} (isKey : k.kind = "KW_property")
    (isName : n.kind = "IDENTIFIER") (mem : v.kind ∈ valueKinds)
    (symbol : t.symbol id = "modifier") (links : t.children id = below.tops)
    (holds : t.Holds below
      (.token k (.token n (.node ⟨"anyval", kind⟩ (.token v .nil) .nil))))
    (nodup : (id :: below.preorder).Nodup) :
    Translates t id below (value v >>= fun w => reference n.lexeme n >>= fun _ =>
      pure (Modifier.property n.lexeme w)) .modifier := by
  obtain _ | _ | @⟨c, _, _, _, symbolC, _, _, holds⟩ := holds
  obtain _ | _ | @⟨x, _, _, _, symbolX, raw, position, holds⟩ := holds
  obtain _ | _ | _ | @⟨a, ab, _, _, _, _, symbolA, linksA, holdsA, tail⟩ := holds
  cases tail
  have plain : t.symbol c ∈ plainKinds := by rw [symbolC, isKey]; decide
  simp only [Shape.preorder, List.append_nil, List.nil_append, Translates] at nodup ⊢
  obtain ⟨_, _, apart, subX, subA⟩ := two_subtrees [id, c] [] [] nodup
  intro s room
  rw [performTree]
  simp only [performAll_node, performAll_nil, pure_bind, bind_assoc, performTree_plain plain]
  refine .pair room subX subA (apart a List.mem_cons_self) (translates_value mem symbolA linksA holdsA)
    (translates_identifier (symbolX.trans isName) raw position)
    fun s' w n' payloadA payloadX keeps => ?_
  have ne : a ≠ x := by
    rintro rfl
    exact apart a List.mem_cons_self List.mem_cons_self
  have action : perform t id = Action.modifier t id >>= put id := by
    rw [perform, forNode?, symbol]
    rfl
  have word : ((t.children id).filter (t.symbol · == "IDENTIFIER"))[0]? = some x := by
    simp [links, symbolC, isKey, symbolX, isName]
  have value : ((t.children id).filter (t.symbol · == "anyval"))[0]? = some a := by
    simp [links, symbolC, isKey, symbolX, isName, symbolA]
  have property : hasChild t id (Symbol.keyword "property") = true := by
    simp [hasChild, links, symbolC, isKey, Symbol.keyword]
  refine .finish keeps room List.mem_cons_self [x, a] (by simp) ?_
  have kept : (s'.hold x .blank).payload a = .value w := by
    rw [Assembler.payload_hold_of_ne _ _ ne, payloadA]
  simp only [action, Action.modifier, run_bind, run_take word, payloadX, asWord, run_pure,
    property, if_true, run_take value, kept, asValue, run_put, Assembler.clear]

/-- A statement with a mark is translated like the rest of it, and then the mark is applied. -/
theorem translate_marked (m : Mark) (marks : List Mark) (name : Token) (vs : List Token) :
    (Statement.mk (m :: marks) name vs).translate =
      (Statement.mk marks name vs).translate >>= fun (i, number) =>
        m.apply i number >>= fun j => pure (j, number) := by
  simp only [Statement.translate, applyMarks, bind_assoc, pure_bind]

/-- The subtree of a modifier does what its mark does. -/
theorem translates_modifier {f : Forest} {m : Mark} (reads : ReadsModifier f m)
    (symbol : t.symbol id = "modifier") (links : t.children id = below.tops)
    (holds : t.Holds below f) (nodup : (id :: below.preorder).Nodup) :
    ∃ made : Translation Modifier, Translates t id below made .modifier ∧
      ∀ i number, m.apply i number = made >>= fun x => pure (modify i x) := by
  cases reads with
  | annotation isKey isName =>
    refine ⟨_, translates_annotation isKey isName symbol links holds, fun i number => ?_⟩
    simp only [Mark.apply, modify, bind_assoc, pure_bind]
  | @property k n v kind isKey isName mem =>
    refine ⟨_, translates_property isKey isName mem symbol links holds nodup, fun i number => ?_⟩
    simp only [Mark.apply, modify, bind_assoc, pure_bind]

/-- What a line's node holds: its instruction and the number of it. -/
def lineOf (p : Instruction × Int) : Payload := .line p.1 p.2

theorem translates_plain_line {name : Token} {vs : List Token} {f : Forest}
    {rhs inner : List String} (kind : name.kind = "IDENTIFIER") (values : ReadsValues f vs)
    (symbol : t.symbol id = "line") (links : t.children id = below.tops)
    (holds : t.Holds below
      (.node ⟨"instruction", inner⟩ (.token name (.node ⟨"operands", rhs⟩ f .nil)) .nil))
    (nodup : (id :: below.preorder).Nodup) :
    Translates t id below (Statement.mk [] name vs).translate lineOf := by
  obtain _ | _ | _ | @⟨c, cb, _, _, _, _, symbolC, linksC, holdsC, tail⟩ := holds
  cases tail
  simp only [Shape.preorder, List.append_nil, Translates] at nodup ⊢
  have nodupC := (List.nodup_cons.mp nodup).2
  have sub : c :: cb.preorder ⊆ id :: c :: cb.preorder := List.subset_cons_self _ _
  have inner := translates_instruction kind values symbolC linksC holdsC nodupC
  have parts : (Statement.mk [] name vs).translate =
      (Language.values vs >>= fun ws => reference name.lexeme name >>= fun _ =>
        pure (Instruction.bare name.lexeme ws)) >>= fun i =>
          Translation.onLabels (·.place) >>= fun number => pure (i, number) := by
    simp only [Statement.translate, applyMarks, bind_assoc, pure_bind]
  intro s room
  rw [performTree, parts]
  simp only [performAll_node, performAll_nil, pure_bind]
  refine Performs.bind (inner s (room.sub sub)) fun s' i held => ?_
  obtain ⟨payload, keeps⟩ := held
  have action : perform t id = Action.line t id >>= put id := by
    rw [perform, forNode?, symbol]
    rfl
  have instruction : ((t.children id).filter (t.symbol · == "instruction"))[0]? = some c := by
    simp [links, symbolC]
  have has : hasChild t id "instruction" = true := by
    simp [hasChild, links, symbolC]
  refine Performs.map (.finish_onLabels (P := fun number => lineOf (i, number)) (keeps.mono sub)
    room List.mem_cons_self (s'.clear [c]) (by simp) (.clear (by simp) _) ?_)
    fun s' number held => held
  simp only [action, Action.line, has, if_true, run_bind, run_take instruction, payload,
    asInstruction, run_pure, Assembler.clear, lineOf]
  rcases (Action.onLabels (·.place)).run (s'.hold c .blank) with ⟨r, s''⟩
  cases r <;> rfl

theorem translates_line {f : Forest} {st : Statement} (reads : ReadsLine f st)
    (symbol : t.symbol id = "line") (links : t.children id = below.tops)
    (holds : t.Holds below f) (nodup : (id :: below.preorder).Nodup) :
    Translates t id below st.translate lineOf := by
  induction reads generalizing id below with
  | instruction kind values =>
    exact translates_plain_line kind values symbol links holds nodup
  | @label l name marks vs _ _ isLabel _ ih =>
    obtain _ | _ | @⟨c, _, _, _, symbolC, raw, position, holds⟩ := holds
    obtain _ | _ | _ | @⟨b, bb, _, _, _, _, symbolB, linksB, holdsB, tail⟩ := holds
    cases tail
    simp only [Shape.preorder, List.append_nil, List.nil_append, Translates] at nodup ⊢
    obtain ⟨_, nodupB, apart, subC, subB⟩ := two_subtrees [id] [] [] nodup
    have parts : (Statement.mk (.label l :: marks) name vs).translate =
        (Statement.mk marks name vs).translate >>= fun p =>
          reference (labelName l.lexeme) l >>= fun _ =>
            Translation.onLabels (·.define (labelName l.lexeme) p.2 (some l.position)) >>= fun _ =>
              pure p := by
      simp only [translate_marked, Mark.apply, bind_assoc, pure_bind]
    intro s room
    rw [performTree, parts]
    simp only [performAll_node, performAll_nil, pure_bind, bind_assoc]
    refine .pair room subC subB (apart b List.mem_cons_self) (ih symbolB linksB holdsB nodupB)
      (translates_label (symbolC.trans isLabel) raw position)
      fun s' p n payloadB payloadC keeps => ?_
    have ne : b ≠ c := by
      rintro rfl
      exact apart b List.mem_cons_self List.mem_cons_self
    have action : perform t id = Action.line t id >>= put id := by
      rw [perform, forNode?, symbol]
      rfl
    have noInstruction : hasChild t id "instruction" = false := by
      simp [hasChild, links, symbolC, isLabel, symbolB]
    have noModifier : hasChild t id "modifier" = false := by
      simp [hasChild, links, symbolC, isLabel, symbolB]
    have label : ((t.children id).filter (t.symbol · == "LABEL"))[0]? = some c := by
      simp [links, symbolC, isLabel]
    have line : ((t.children id).filter (t.symbol · == "line"))[0]? = some b := by
      simp [links, symbolC, isLabel, symbolB]
    refine Performs.map (.finish_onLabels (P := fun _ => lineOf p) keeps room
      List.mem_cons_self (s'.clear [c, b]) (by simp) (.clear (by simp) _) ?_) fun s' _ held => held
    have kept : (s'.hold c .blank).payload b = .line p.1 p.2 := by
      rw [Assembler.payload_hold_of_ne _ _ ne, payloadB, lineOf]
    simp only [action, Action.line, noInstruction, noModifier, Bool.false_eq_true, if_false,
      run_bind, run_child label, run_takeFrom, payloadC, asWord, run_take line, kept, asLine,
      run_pure, position, Assembler.clear, lineOf]
    rcases (Action.onLabels (·.define (labelName l.lexeme) p.2 (some l.position))).run
      ((s'.hold c .blank).hold b .blank) with ⟨r, s''⟩
    cases r <;> rfl
  | @modified a name m marks vs _ _ _ _ isAt modifier _ ih =>
    obtain _ | _ | @⟨c, _, _, _, symbolC, _, _, holds⟩ := holds
    obtain _ | _ | _ | @⟨x, xb, _, _, _, _, symbolX, linksX, holdsX, holds⟩ := holds
    obtain _ | _ | _ | @⟨b, bb, _, _, _, _, symbolB, linksB, holdsB, tail⟩ := holds
    cases tail
    have plain : t.symbol c ∈ plainKinds := by rw [symbolC, isAt]; decide
    simp only [Shape.preorder, List.append_nil, List.nil_append, Translates] at nodup ⊢
    obtain ⟨nodupX, nodupB, apart, subX, subB⟩ := two_subtrees [id, c] [] _ nodup
    obtain ⟨made, makes, applied⟩ := translates_modifier modifier symbolX linksX holdsX nodupX
    have parts : (Statement.mk (m :: marks) name vs).translate =
        (Statement.mk marks name vs).translate >>= fun p => made >>= fun x =>
          pure (modify p.1 x, p.2) := by
      simp only [translate_marked, applied, bind_assoc, pure_bind]
    intro s room
    rw [performTree, parts]
    simp only [performAll_node, performAll_nil, pure_bind, bind_assoc, performTree_plain plain]
    refine .pair room subX subB (apart b List.mem_cons_self) (ih symbolB linksB holdsB nodupB)
      makes fun s' p x' payloadB payloadX keeps => ?_
    have ne : b ≠ x := by
      rintro rfl
      exact apart b List.mem_cons_self List.mem_cons_self
    have action : perform t id = Action.line t id >>= put id := by
      rw [perform, forNode?, symbol]
      rfl
    have noInstruction : hasChild t id "instruction" = false := by
      simp [hasChild, links, symbolC, isAt, symbolX, symbolB]
    have has : hasChild t id "modifier" = true := by
      simp [hasChild, links, symbolC, isAt, symbolX]
    have taken : ((t.children id).filter (t.symbol · == "modifier"))[0]? = some x := by
      simp [links, symbolC, isAt, symbolX]
    have line : ((t.children id).filter (t.symbol · == "line"))[0]? = some b := by
      simp [links, symbolC, isAt, symbolX, symbolB]
    refine .finish keeps room List.mem_cons_self [x, b] (by simp) ?_
    have kept : (s'.hold x .blank).payload b = .line p.1 p.2 := by
      rw [Assembler.payload_hold_of_ne _ _ ne, payloadB, lineOf]
    simp only [action, Action.line, noInstruction, has, Bool.false_eq_true, if_false, if_true,
      run_bind, run_take taken, payloadX, asModifier, run_take line, kept, asLine, run_pure,
      Assembler.clear, lineOf]
    cases x' <;> rfl

end Lines

section Blocks

variable {t : Tree} {id : NodeId} {below : Shape}

theorem action_of_start (symbol : t.symbol id = "start") :
    perform t id = Action.block t id >>= put id := by
  rw [perform, forNode?, symbol]
  rfl

theorem translates_block {f : Forest} {b : Block} (reads : ReadsBlock f b)
    (symbol : t.symbol id = "start") (links : t.children id = below.tops)
    (holds : t.Holds below f) (nodup : (id :: below.preorder).Nodup) :
    Translates t id below b.translate .block := by
  have action := action_of_start symbol
  induction reads generalizing id below with
  | done =>
    obtain _ | @⟨e, _, _, empty, tail⟩ := holds
    cases tail
    have plain : t.symbol e ∈ plainKinds := by rw [empty]; decide
    have noLine : hasChild t id "line" = false := by
      simp [hasChild, links, empty, Symbol.empty]
    have noRepeat : hasChild t id (Symbol.keyword "repeat") = false := by
      simp [hasChild, links, empty, Symbol.empty, Symbol.keyword]
    have has : hasChild t id Symbol.empty = true := by
      simp [hasChild, links, empty]
    intro s room
    rw [performTree]
    simp only [performAll_node, performAll_nil, pure_bind, performTree_plain plain]
    refine .finish (.refl _ s) room List.mem_cons_self [] (List.nil_subset _) ?_
    rw [action, Action.block, noLine, noRepeat, has]
    rfl
  | @statement st stop b _ _ _ _ line isStop _ ih =>
    obtain _ | _ | _ | @⟨x, xb, _, _, _, _, symbolX, linksX, holdsX, holds⟩ := holds
    obtain _ | _ | @⟨c, _, _, _, symbolC, _, _, holds⟩ := holds
    obtain _ | _ | _ | @⟨y, yb, _, _, _, _, symbolY, linksY, holdsY, tail⟩ := holds
    cases tail
    have plain : t.symbol c ∈ plainKinds := by rw [symbolC, isStop]; decide
    simp only [Shape.preorder, List.append_nil, List.nil_append, Translates] at nodup ⊢
    obtain ⟨nodupX, nodupY, apart, subX, subY⟩ := two_subtrees [id] [c] _ nodup
    intro s room
    rw [performTree, Block.translate]
    simp only [performAll_node, performAll_nil, pure_bind, bind_assoc, performTree_plain plain]
    refine .pair room subX subY (apart y List.mem_cons_self)
      (ih symbolY linksY holdsY nodupY (action_of_start symbolY))
      (translates_line line symbolX linksX holdsX nodupX)
      fun s' tail p payloadY payloadX keeps => ?_
    have ne : y ≠ x := by
      rintro rfl
      exact apart y List.mem_cons_self List.mem_cons_self
    have has : hasChild t id "line" = true := by
      simp [hasChild, links, symbolX]
    have line : ((t.children id).filter (t.symbol · == "line"))[0]? = some x := by
      simp [links, symbolX]
    have rest : ((t.children id).filter (t.symbol · == Symbol.start))[0]? = some y := by
      simp [links, symbolX, symbolC, isStop, symbolY, Symbol.start]
    refine .finish keeps room List.mem_cons_self [x, y] (by simp) ?_
    have kept : (s'.hold x .blank).payload y = .block tail := by
      rw [Assembler.payload_hold_of_ne _ _ ne, payloadY]
    simp only [action, Action.block, has, if_true, run_bind, run_take line, payloadX, lineOf,
      asLine, run_take rest, kept, asBlock, run_pure, run_put, Assembler.clear]
  | @loop key opens count closes left right body rest _ _ _ _ isKey isOpen isCount isClose isLeft _
      isRight _ ihb ih =>
    obtain _ | _ | @⟨k, _, _, _, symbolK, _, _, holds⟩ := holds
    obtain _ | _ | @⟨o, _, _, _, symbolO, _, _, holds⟩ := holds
    obtain _ | _ | @⟨c, _, _, _, symbolC, raw, position, holds⟩ := holds
    obtain _ | _ | @⟨d, _, _, _, symbolD, _, _, holds⟩ := holds
    obtain _ | _ | @⟨l, _, _, _, symbolL, _, _, holds⟩ := holds
    obtain _ | _ | _ | @⟨x, xb, _, _, _, _, symbolX, linksX, holdsX, holds⟩ := holds
    obtain _ | _ | @⟨r, _, _, _, symbolR, _, _, holds⟩ := holds
    obtain _ | _ | _ | @⟨y, yb, _, _, _, _, symbolY, linksY, holdsY, tail⟩ := holds
    cases tail
    have plainK : t.symbol k ∈ plainKinds := by rw [symbolK, isKey]; decide
    have plainO : t.symbol o ∈ plainKinds := by rw [symbolO, isOpen]; decide
    have plainD : t.symbol d ∈ plainKinds := by rw [symbolD, isClose]; decide
    have plainL : t.symbol l ∈ plainKinds := by rw [symbolL, isLeft]; decide
    have plainR : t.symbol r ∈ plainKinds := by rw [symbolR, isRight]; decide
    simp only [Shape.preorder, List.append_nil, List.nil_append, Translates] at nodup ⊢
    obtain ⟨nodupX, nodupY, apart, subX, subY⟩ :=
      two_subtrees [id, k, o, c, d, l] [r] _ nodup
    obtain ⟨_, _, apartC, subC, _⟩ :=
      two_subtrees [id, k, o] [d, l] [] nodup
    intro s room
    rw [performTree, Block.translate]
    simp only [performAll_node, performAll_nil, pure_bind, bind_assoc, performTree_plain plainK,
      performTree_plain plainO, performTree_plain plainD, performTree_plain plainL,
      performTree_plain plainR]
    refine .pair room subX subY (apart y List.mem_cons_self)
      (ih symbolY linksY holdsY nodupY (action_of_start symbolY))
      (ihb symbolX linksX holdsX nodupX (action_of_start symbolX))
      fun s₁ tail inner payloadY payloadX keeps => ?_
    have leaf : Translates t c .nil (value count) .value := by
      simp only [value, isCount, String.reduceEq, if_true, if_false]
      refine translates_literal ?_
      rw [forNode?, symbolC.trans isCount, raw, position]
      rfl
    refine Performs.bind (leaf s₁ (keeps.room (room.sub subC))) fun s₂ w held => ?_
    obtain ⟨payloadC, keepsC⟩ := held
    have afterC := keeps.trans (keepsC.mono subC)
    rw [← keepsC.others x (apartC x List.mem_cons_self)] at payloadX
    rw [← keepsC.others y (apartC y (by simp))] at payloadY
    have noLine : hasChild t id "line" = false := by
      simp [hasChild, links, symbolK, isKey, symbolO, isOpen, symbolC, isCount, symbolD, isClose,
        symbolL, isLeft, symbolX, symbolR, isRight, symbolY]
    have has : hasChild t id (Symbol.keyword "repeat") = true := by
      simp [hasChild, links, symbolK, isKey, Symbol.keyword]
    have literal : ((t.children id).filter (t.symbol · == "I_LITERAL"))[0]? = some c := by
      simp [links, symbolK, isKey, symbolO, isOpen, symbolC, isCount]
    have start : (t.children id).filter (t.symbol · == Symbol.start) = [x, y] := by
      simp [links, symbolK, isKey, symbolO, isOpen, symbolC, isCount, symbolD, isClose, symbolL,
        isLeft, symbolX, symbolR, isRight, symbolY, Symbol.start]
    have first : ((t.children id).filter (t.symbol · == Symbol.start))[0]? = some x := by
      rw [start]
      rfl
    have second : ((t.children id).filter (t.symbol · == Symbol.start))[1]? = some y := by
      rw [start]
      rfl
    have ne : y ≠ x := by
      rintro rfl
      exact apart y List.mem_cons_self List.mem_cons_self
    have neX : x ≠ c := fun eq => apartC x List.mem_cons_self (by simp [eq])
    have neY : y ≠ c := fun eq => apartC y (by simp) (by simp [eq])
    have keptX : (s₂.hold c .blank).payload x = .block inner := by
      rw [Assembler.payload_hold_of_ne _ _ neX, payloadX]
    have keptY : ((s₂.hold c .blank).hold x .blank).payload y = .block tail := by
      rw [Assembler.payload_hold_of_ne _ _ ne, Assembler.payload_hold_of_ne _ _ neY, payloadY]
    -- only a literal that is a number and not negative counts
    by_cases counts : ∃ n : Int, w = .int n ∧ 0 ≤ n
    · obtain ⟨n, rfl, nonneg⟩ := counts
      have counted : repeatCount count (.int n) = pure n.toNat := if_pos nonneg
      rw [counted, pure_bind]
      refine Performs.map (.finish_onLabels (P := fun unrolled => .block (unrolled ++ tail))
        afterC room List.mem_cons_self { s₂.clear [c, x, y] with
          repetitions := ⟨inner.length, n.toNat⟩ :: s₂.repetitions } rfl ?_ ?_) fun s' unrolled held => held
      · have cleared : Assembler.Keeps
            (id :: k :: o :: c :: d :: l :: x :: (xb.preorder ++ r :: y :: yb.preorder)) s₂
            (s₂.clear [c, x, y]) := .clear (by simp) s₂
        exact ⟨cleared.size, cleared.others⟩
      · simp only [action, Action.block, noLine, has, Bool.false_eq_true, if_true, if_false,
          Action.repeatCount, run_bind, run_child literal, run_takeFrom, payloadC, asValue,
          run_pure, nonneg, run_take first, run_take second, keptX, keptY, asBlock, run_modify,
          Assembler.clear, Assembler.repetitions_hold]
        generalize (Action.onLabels (·.expandRepeat inner n.toNat)).run _ = outcome
        rcases outcome with ⟨r, s''⟩
        cases r <;> rfl
    · have refused : repeatCount count w =
          throw (.literal ⟨.badRepeatCount, "", some count.position⟩) := by
        cases w with
        | int n => exact if_neg fun nonneg => counts ⟨n, rfl, nonneg⟩
        | _ => rfl
      rw [refused]
      refine Performs.throw (s₂.hold c .blank) ?_
      simp only [action, Action.block, noLine, has, Bool.false_eq_true, if_true, if_false,
        Action.repeatCount, run_bind, run_child literal, run_takeFrom, payloadC, asValue,
        run_pure]
      cases w with
      | int n =>
        have negative : ¬ 0 ≤ n := fun nonneg => counts ⟨n, rfl, nonneg⟩
        simp only [if_neg negative, position]
        rfl
      | _ =>
        rw [position]
        rfl

end Blocks

section Whole

variable {t : Tree}

/-- The root takes over the program of its only child. -/
theorem translates_root {b : Block} {top : NodeId} {below : Shape}
    (symbol : t.symbol Tree.root = Symbol.root) (links : t.children Tree.root = [top])
    (translated : Translates t top below b.translate .block) :
    Translates t Tree.root (.node top below .nil) b.translate .block := by
  simp only [Shape.preorder, List.append_nil, Translates]
  intro s room
  have sub : top :: below.preorder ⊆ Tree.root :: top :: below.preorder :=
    List.subset_cons_self _ _
  rw [performTree, ← bind_pure b.translate]
  simp only [performAll_node, performAll_nil, pure_bind]
  refine Performs.bind (translated s (room.sub sub)) fun s' p held => ?_
  obtain ⟨payload, keeps⟩ := held
  have action : perform t Tree.root = whole t Tree.root >>= put Tree.root := by
    rw [perform, forNode?, symbol]
    rfl
  refine .finish (keeps.mono sub) room List.mem_cons_self [top] (by simp) ?_
  simp only [action, whole, links, List.head?_cons, run_bind, run_takeFrom, payload, asBlock,
    run_pure, run_put, Assembler.clear]

/-- What a tree comes to before its references are resolved is what a block is translated to. -/
def Block.MadeFrom (b : Block) (t : Tree) : Prop :=
  match b.translate.run .new with
  | (.error e, _) => ∃ s, Assembler.unresolved t = .error (e, s)
  | (.ok p, l) => ∃ s, Assembler.unresolved t = .ok (p, s) ∧ s.labels = l

theorem Block.MadeFrom.assemble_eq {b : Block} (made : b.MadeFrom t) :
    t.assemble.result = b.assemble := by
  unfold Block.MadeFrom at made
  rw [Tree.assemble, Block.assemble]
  rcases step : b.translate.run .new with ⟨r, l⟩
  rw [step] at made
  cases r with
  | error e =>
    obtain ⟨s, same⟩ := made
    rw [same]
  | ok p =>
    obtain ⟨s, same, rfl⟩ := made
    rw [same]
    simp only
    rcases s.labels.resolve p with ⟨q, e⟩
    cases e <;> rfl

/-- A tree that holds a block comes to the translation of the block. -/
theorem Block.madeFrom_of_reads {b : Block} {top : NodeId} {children : Forest} {rhs : List String}
    {shape : Shape} (shaped : t.Shaped shape) (rootSymbol : t.symbol Tree.root = Symbol.root)
    (links : t.children Tree.root = [top])
    (shows : t.Shows [top] (.node ⟨"start", rhs⟩ children .nil)) (reads : ReadsBlock children b) :
    b.MadeFrom t := by
  have nodup := shaped.nodup
  have room : (Assembler.initial t).Room shape.preorder := by
    intro x mem
    rw [Assembler.initial, Array.size_replicate]
    exact shaped.lt_size mem
  have evaluated := Tree.evaluateBottomUp_eq_foldlM shaped (Assembler.visit t)
    (Assembler.initial t)
  rw [Assembler.foldlM_visit] at evaluated
  obtain _ | ⟨root, below, rest⟩ := shape
  · cases shaped.top
  obtain ⟨rfl, alone⟩ := List.cons.inj shaped.top
  obtain rfl := Shape.tops_eq_nil alone
  obtain ⟨_, _, linked, fits, _⟩ := shaped.fits
  have tops : below.tops = [top] := linked.symm.trans links
  have holds := Tree.holds_of_shows fits (tops.symm ▸ shows)
  obtain _ | _ | _ | @⟨id, inner, _, _, _, _, symbol, linksB, holdsB, tail⟩ := holds
  cases tail
  obtain ⟨rfl, _⟩ := List.cons.inj tops
  simp only [Shape.preorder, List.append_nil] at nodup room
  have translated := translates_root rootSymbol links
    (translates_block reads symbol linksB holdsB (List.nodup_cons.mp nodup).2)
    (Assembler.initial t) (by simpa using room)
  rw [performAll_node, performAll_nil, pure_bind] at evaluated
  rw [Block.MadeFrom, Assembler.unresolved, evaluated]
  unfold Performs at translated
  have fresh : (Assembler.initial t).labels = .new := rfl
  rw [fresh] at translated
  rcases step : b.translate.run .new with ⟨r, l⟩
  rw [step] at translated
  cases r with
  | error e =>
    obtain ⟨s, run⟩ := translated
    rw [run]
    exact ⟨s, rfl⟩
  | ok p =>
    obtain ⟨s, run, rfl, payload, _⟩ := translated
    have taken : (takeFrom Tree.root >>= asBlock).run s = (.ok p, s.hold Tree.root .blank) := by
      rw [run_bind, run_takeFrom, payload]
      rfl
    rw [run]
    simp only [outcome, taken]
    exact ⟨_, rfl, Assembler.labels_hold _ _ _⟩

/-- The tree of a parse holds the one block that the tokens spell. -/
theorem exists_block_of_parse {g : Grammar} (accepted : Grammar.ofRules rules = .ok g)
    {tokens : List Token} (unmarked : ∀ t ∈ tokens, t.kind ≠ Symbol.endOfInput)
    (success : (g.parse tokens).error = none) :
    ∃ b : Block, b.Spells tokens ∧ b.MadeFrom (.ofEvents (g.parse tokens).events) := by
  obtain ⟨f, shape, valid, roots, rfl, shaped, shows, links, symbol⟩ :=
    Tree.exists_shows_of_parse accepted (by decide) unmarked success rfl
  obtain ⟨rhs, children, b, rfl, reads⟩ := exists_block_of_valid valid roots
  refine ⟨b, ?_, Block.madeFrom_of_reads shaped symbol links shows reads⟩
  have spelled := reads.spells
  simpa using spelled

end Whole

end TableAsm.Language
