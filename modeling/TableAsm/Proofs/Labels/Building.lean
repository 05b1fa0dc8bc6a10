import TableAsm.Proofs.Labels.Listing

/-! Labels keep a listing that is built from its end. An instruction is put in front, a name is put
on a line, and a block at the front gives way to its copies, with the names on the first one.
`Built` are the runs of these operations, and `Represents` says what the labels tell of the listing
after each of them. -/
namespace TableAsm.Labels

open Listing

/-- The runs of the operations on labels, each with the listing that it has built and the names
that label something in it: the names that have been defined and not lost in a block that was
repeated not at all. -/
inductive Built : Labels → Listing → List String → Prop where
  | new : Built new [] []
  | reference {l l' : Labels} {L : Listing} {live : List String} {name : String}
      {position : Option Position} {n : Int} : Built l L live →
      l.reference name position = (l', .ok n) → Built l' L live
  | place {l l' : Labels} {L : Listing} {live : List String} {number : Int} (i : Instruction) :
      Built l L live → l.place = (l', .ok number) → Built l' (⟨[], i⟩ :: L) live
  | define {l l' : Labels} {L : Listing} {live : List String} {name : String} {j : Nat}
      {position : Option Position} : Built l L live → j < L.length →
      l.define name (j - L.length) position = (l', .ok ()) →
      Built l' (L.mark j name) (name :: live)
  | expand {l l' : Labels} {block behind : Listing} {live : List String} {times : Nat}
      {is : List Instruction} : Built l (block ++ behind) live →
      l.expandRepeat block.instructions times = (l', .ok is) →
      Built l' (block.unrolled is ++ behind)
        (if times = 0 then live.filter fun name => block.indexOf? name = none else live)

/-- Labels tell of a listing: how long it is, which names label something and where, and what
its references come to when a block at its front is unrolled and when all is resolved. -/
structure Represents (l : Labels) (L : Listing) (live : List String) : Prop where
  counter : l.counter = -(L.length : Int)
  short : L.length ≤ maxLength
  live_iff : ∀ name, (l.target? name).isSome ↔ name ∈ live
  target_iff : ∀ name t, l.target? name = some t ↔
    ∃ j, L.Sits name j ∧ t + L.length = j
  place_number : ∀ l' number, l.place = (l', .ok number) → number + (L.length + 1) = 0
  reference_name : ∀ name position l' n, l.reference name position = (l', .ok n) →
    l'.nameOf? n = some name
  /-- Distances are no references, so what is settled stays. -/
  distance : ∀ d : Int, -(maxLength : Int) ≤ d → l.nameOf? d = none
  expand_copies : ∀ block behind times l' is, L = block ++ behind →
    l.expandRepeat block.instructions times = (l', .ok is) →
      is = (List.replicate times (block.settled l)).flatten
  expand_behind : ∀ block behind times l' is, L = block ++ behind →
    l.expandRepeat block.instructions times = (l', .ok is) →
      ∀ name j, behind.Sits name j → l'.target? name = l.target? name
  resolve_ok_iff : (l.resolve L.instructions).2 = none ↔ ∀ line ∈ L, ∀ v,
    .int v ∈ line.instruction.values → ∀ name, l.nameOf? v = some name → name ∈ live
  resolve_eq : ∀ p, l.resolve L.instructions = (p, none) → p = L.settled l

variable {l l' : Labels} {L block behind : Listing} {live : List String} {name : String}

/-- The names of a block are lost when it is repeated not at all, and only then. -/
theorem live_expand (h : l.Carries (names (block ++ behind))) {times : Nat}
    (carried : l'.Carries (unrolledNames block.names times ++ behind.names))
    (live_iff : ∀ name, (l.target? name).isSome ↔ name ∈ live) (name : String) :
    (l'.target? name).isSome ↔ name ∈
      if times = 0 then live.filter fun name => block.indexOf? name = none else live := by
  rw [names_append] at h
  rw [carried.isSome_target?_iff]
  cases times with
  | zero =>
    rw [if_pos rfl, List.mem_filter, decide_eq_true_iff, ← live_iff, h.isSome_target?_iff,
      indexOf?_eq_none]
    constructor
    · rintro ⟨here, mem, on⟩
      change here ∈ behind.names at mem
      refine ⟨⟨here, List.mem_append_right _ mem, on⟩, fun there mem' on' => ?_⟩
      -- otherwise the name would be on two lines
      obtain ⟨j, at_j⟩ := List.mem_iff_getElem?.mp mem
      obtain ⟨i, at_i⟩ := List.mem_iff_getElem?.mp mem'
      have short := (List.getElem?_eq_some_iff.mp at_i).1
      have same := h.unique (i := i) (j := block.names.length + j)
        (by rw [List.getElem?_append_left short, at_i]) on'
        (by rw [List.getElem?_append_right (Nat.le_add_right _ _), Nat.add_sub_cancel_left, at_j]) on
      omega
    · rintro ⟨⟨here, mem, on⟩, absent⟩
      rcases List.mem_append.mp mem with mem | mem
      · exact absurd on (absent here mem)
      · exact ⟨here, mem, on⟩
  | succ further =>
    rw [if_neg (Nat.succ_ne_zero further), ← live_iff, h.isSome_target?_iff]
    constructor
    · rintro ⟨here, mem, on⟩
      simp only [unrolledNames, List.mem_append, List.mem_replicate] at mem
      rcases mem with (mem | ⟨_, rfl⟩) | mem
      · exact ⟨here, List.mem_append_left _ mem, on⟩
      · cases on
      · exact ⟨here, List.mem_append_right _ mem, on⟩
    · rintro ⟨here, mem, on⟩
      refine ⟨here, ?_, on⟩
      simp only [unrolledNames, List.mem_append] at mem ⊢
      exact mem.imp_left Or.inl

theorem target?_place {number : Int} (step : l.place = (l', .ok number)) (name : String) :
    l'.target? name = l.target? name := by
  unfold Labels.place at step
  split at step <;> cases step
  rfl

/-- What holds along every run. -/
theorem Built.carries (built : Built l L live) : l.Carries L.names ∧ l.Fits ∧
    ∀ name, (l.target? name).isSome ↔ name ∈ live := by
  induction built with
  | new =>
    refine ⟨carries_new, fits_new, fun name => ?_⟩
    rw [carries_new.isSome_target?_iff]
    simp
  | reference _ step ih =>
    obtain ⟨carries, fits, live_iff⟩ := ih
    obtain ⟨grows, _⟩ := reference_grows carries.sound step
    refine ⟨carries.grows grows, ?_, fun name => by rw [grows.targets, live_iff]⟩
    unfold Fits
    rw [grows.counter]
    exact fits
  | place i _ step ih =>
    obtain ⟨carries, _, live_iff⟩ := ih
    obtain ⟨carried, _, fits, _⟩ := carries.place step
    exact ⟨carried, fits, fun name => by rw [target?_place step, live_iff]⟩
  | @define l l' L live name j position _ inside step ih =>
    obtain ⟨carries, fits, live_iff⟩ := ih
    have counter := carries.counter
    rw [length_names] at counter
    rw [show (j : Int) - L.length = l.counter + j by omega] at step
    obtain ⟨_, _, _, _, targets⟩ := define_target carries.sound step
    have found : L[j]? = some L[j] := List.getElem?_eq_getElem inside
    have named : L.names[j]? = some L[j].names := by
      rw [names, List.getElem?_map, found]
      rfl
    obtain ⟨carried, _, same, _⟩ := carries.define named step
    refine ⟨names_mark found name ▸ carried, ?_, fun other => ?_⟩
    · unfold Fits
      rw [same]
      exact fits
    · rw [targets, List.mem_cons, ← live_iff]
      by_cases eq : other = name
      · simp [eq]
      · simp [eq]
  | expand _ step ih =>
    obtain ⟨carries, fits, live_iff⟩ := ih
    obtain ⟨named, carried, fits', _⟩ := carries.expand fits step
    exact ⟨carried, fits', live_expand carries named live_iff⟩

/-- Along every run, labels represent the listing that has been built. -/
theorem Built.represents (built : Built l L live) : l.Represents L live := by
  obtain ⟨carries, fits, live_iff⟩ := built.carries
  have counter := carries.counter
  rw [length_names] at counter
  have alive_iff : (∀ line ∈ L, ∀ v, .int v ∈ line.instruction.values → ∀ name,
      l.nameOf? v = some name → ∃ here ∈ L.names, name ∈ here) ↔
      ∀ line ∈ L, ∀ v, .int v ∈ line.instruction.values → ∀ name,
        l.nameOf? v = some name → name ∈ live := by
    simp only [← live_iff, carries.isSome_target?_iff]
  refine ⟨counter, ?_, live_iff, carries.target_iff, ?_, ?_, ?_, ?_, ?_, ?_, ?_⟩
  · unfold Fits at fits
    omega
  · intro l' number step
    obtain ⟨carried, _, _, rfl⟩ := carries.place step
    rw [carried.counter, List.length_cons, length_names]
    omega
  · intro name position l' n step
    obtain ⟨grows, known⟩ := reference_grows carries.sound step
    exact grows.sound.nameOf?_eq_some.mpr known
  · intro d small
    have room : maxLength < unit := by decide
    exact nameOf?_of_lt (by omega)
  · rintro block behind times l' is rfl step
    exact (carries.expand fits step).2.2.2
  · rintro block behind times l' is rfl step name j sits
    obtain ⟨_, carried, _, _⟩ := carries.expand fits step
    -- targets are counted from the end, and nothing has changed behind the block
    have before := (carries.target_iff name (j - behind.length)).mpr
      ⟨_, sits_append_right sits block, by simp; omega⟩
    have after := (carried.target_iff name (j - behind.length)).mpr
      ⟨_, sits_append_right sits (block.unrolled is), by simp; omega⟩
    rw [before, after]
  · rw [← alive_iff]
    constructor
    · intro resolved
      exact carries.alive_of_resolve (Prod.ext rfl resolved)
    · intro alive
      rw [carries.resolve_eq_settled alive]
  · intro p resolved
    rw [carries.resolve_eq_settled (carries.alive_of_resolve resolved)] at resolved
    exact (Prod.mk.inj resolved).1.symm

/-- An instruction that refers to its own label is repeated twice. -/
theorem represents_twice :
    ∃ l, Built l [⟨["A"], .bare "x" [.int 0]⟩, ⟨[], .bare "x" [.int 0]⟩] ["A"] ∧
      l.Represents [⟨["A"], .bare "x" [.int 0]⟩, ⟨[], .bare "x" [.int 0]⟩] ["A"] := by
  let index : Std.HashMap String Nat := (∅ : Std.HashMap String Nat).insert "A" 0
  have referred : new.reference "A" none =
      (⟨#[⟨"A", none, none⟩], index, 0⟩, .ok (placeholderAt 0)) := by
    simp only [new, reference, Std.HashMap.getElem?_empty]
    rfl
  have placed : Labels.place ⟨#[⟨"A", none, none⟩], index, 0⟩ =
      (⟨#[⟨"A", none, none⟩], index, -1⟩, .ok (-1)) := rfl
  have defined : Labels.define ⟨#[⟨"A", none, none⟩], index, -1⟩ "A" (-1) none =
      (⟨#[⟨"A", none, some (-1)⟩], index, -1⟩, .ok ()) := by
    simp only [define, reference, index, Std.HashMap.getElem?_insert, String.reduceBEq, if_true]
    rfl
  have expanded : Labels.expandRepeat ⟨#[⟨"A", none, some (-1)⟩], index, -1⟩
      [.bare "x" [.int (placeholderAt 0)]] 2 = (⟨#[⟨"A", none, some (-2)⟩], index, -2⟩,
        .ok [.bare "x" [.int 0], .bare "x" [.int 0]]) := by
    have here : localOffset? ⟨#[⟨"A", none, some (-1)⟩], index, -1⟩ 1 (-1) (placeholderAt 0) =
        some 0 := by
      simp only [localOffset?, entryOf?_placeholderAt]
      rfl
    have resolved : resolveWithin ⟨#[⟨"A", none, some (-1)⟩], index, -1⟩
        [.bare "x" [.int (placeholderAt 0)]] = [.bare "x" [.int 0]] := by
      rw [resolveWithin_eq_mapIdx]
      show [Instruction.bare "x" [.int ((localOffset? _ 1 (-1) (placeholderAt 0)).getD _)]] = _
      rw [here]
      rfl
    have moved : retarget ⟨#[⟨"A", none, some (-1)⟩], index, -1⟩ 1 (fun t => some (t - 1)) =
        #[⟨"A", none, some (-2)⟩] := by
      simp [retarget]
    simp only [expandRepeat, resolved, List.length_singleton, Int.natCast_one, Int.mul_one, moved]
    rw [if_neg (by decide)]
    rfl
  have line : Built _ [⟨[], .bare "x" [.int (placeholderAt 0)]⟩] [] :=
    .place _ (.reference .new referred) placed
  have labelled : Built _ ([⟨["A"], .bare "x" [.int (placeholderAt 0)]⟩] ++ []) ["A"] :=
    .define line Nat.zero_lt_one defined
  have built : Built _ [⟨["A"], .bare "x" [.int 0]⟩, ⟨[], .bare "x" [.int 0]⟩] ["A"] :=
    .expand labelled expanded
  exact ⟨_, built, built.represents⟩

end TableAsm.Labels
