import Mathlib.Data.Finset.Card
import Mathlib.Data.Finset.Prod
import TableAsm.Grammar.Sets

/-! Growth of set families. A pass that only adds symbols and keeps within a bound is repeated
until it adds nothing: `stabilizes_saturate` says that the fuel of a saturation does not cut it
off, and `Stabilizes.stable` that what it gives is a fixed point. -/
namespace TableAsm.SetFamily

/-- One family holds no symbol that the other lacks. -/
def Within (f g : SetFamily) : Prop := ∀ name symbol, symbol ∈ f.row name → symbol ∈ g.row name

theorem Within.refl (f : SetFamily) : Within f f := fun _ _ h => h

theorem Within.trans {f g h : SetFamily} (fg : Within f g) (gh : Within g h) : Within f h :=
  fun name symbol mem => gh name symbol (fg name symbol mem)

@[simp] theorem not_mem_row_empty (name symbol : String) : ¬ symbol ∈ row ∅ name :=
  NameSet.not_mem_empty symbol

theorem mem_row_add (f : SetFamily) (name : String) (symbols : NameSet) (other symbol : String) :
    symbol ∈ (f.add name symbols).row other ↔
      symbol ∈ f.row other ∨ (other = name ∧ symbol ∈ symbols) := by
  by_cases h : other = name
  · subst h
    simp [add, row]
  · simp [add, row, h]

theorem within_add (f : SetFamily) (name : String) (symbols : NameSet) :
    Within f (f.add name symbols) :=
  fun other symbol mem => (mem_row_add f name symbols other symbol).mpr (Or.inl mem)

/-- The members of all sets, each with the name of its set. -/
def members (f : SetFamily) : List (String × String) :=
  f.toList.flatMap fun b => b.2.toList.map (b.1, ·)

theorem length_members (f : SetFamily) : f.members.length = f.total := by
  show f.members.length = (f.values.map NameSet.size).sum
  simp [members, NameMap.values, NameSet.size, Function.comp_def]

theorem mem_members (f : SetFamily) (name symbol : String) :
    (name, symbol) ∈ f.members ↔ symbol ∈ f.row name := by
  simp only [members, List.mem_flatMap, List.mem_map, Prod.mk.injEq]
  constructor
  · rintro ⟨⟨k, s⟩, bound, x, mem, rfl, rfl⟩
    have found : f.get? k = some s := (NameMap.mem_toList_iff f k s).mp bound
    rw [row, found]
    exact mem
  · intro mem
    cases found : f.get? name with
    | none =>
      rw [row, found] at mem
      exact absurd mem (NameSet.not_mem_empty symbol)
    | some s =>
      refine ⟨(name, s), (NameMap.mem_toList_iff f name s).mpr found, symbol, ?_, rfl, rfl⟩
      rw [row, found] at mem
      exact mem

theorem nodup_members (f : SetFamily) : f.members.Nodup := by
  rw [members, List.nodup_flatMap]
  constructor
  · intro b _
    have distinct : b.2.toList.Nodup :=
      b.2.ascending.imp fun lt => fun eq => String.lt_irrefl _ (eq ▸ lt)
    exact distinct.map fun x y h => congrArg Prod.snd h
  · refine f.ascending.imp ?_
    intro b c lt p hb hc
    obtain ⟨x, _, rfl⟩ := List.mem_map.mp hb
    obtain ⟨y, _, eq⟩ := List.mem_map.mp hc
    have keys : c.1 = b.1 := (Prod.mk.inj eq).1
    exact String.lt_irrefl _ (keys ▸ lt)

theorem total_eq_card (f : SetFamily) : f.total = f.members.toFinset.card := by
  rw [List.toFinset_card_of_nodup f.nodup_members, length_members]

theorem Within.subset {f g : SetFamily} (h : Within f g) :
    f.members.toFinset ⊆ g.members.toFinset := by
  intro p mem
  obtain ⟨name, symbol⟩ := p
  rw [List.mem_toFinset, mem_members] at mem ⊢
  exact h name symbol mem

theorem Within.total_le {f g : SetFamily} (h : Within f g) : f.total ≤ g.total := by
  rw [total_eq_card, total_eq_card]
  exact Finset.card_le_card h.subset

/-- A family that has grown to no more symbols than before has not changed. -/
theorem Within.of_total_eq {f g : SetFamily} (h : Within f g) (same : g.total = f.total) :
    Within g f := by
  rw [total_eq_card, total_eq_card] at same
  have eq := Finset.eq_of_subset_of_card_le h.subset (Nat.le_of_eq same)
  intro name symbol mem
  rw [← mem_members, ← List.mem_toFinset] at mem ⊢
  rwa [eq]

/-- A family over a list of names and a list of symbols holds at most so many pairs. -/
theorem total_le (f : SetFamily) (names symbols : List String)
    (bounded : ∀ name symbol, symbol ∈ f.row name → name ∈ names ∧ symbol ∈ symbols) :
    f.total ≤ names.length * symbols.length := by
  have subset : f.members.toFinset ⊆ names.toFinset ×ˢ symbols.toFinset := by
    intro p mem
    obtain ⟨name, symbol⟩ := p
    rw [List.mem_toFinset, mem_members] at mem
    have h := bounded name symbol mem
    simpa using h
  calc f.total = f.members.toFinset.card := total_eq_card f
    _ ≤ (names.toFinset ×ˢ symbols.toFinset).card := Finset.card_le_card subset
    _ = names.toFinset.card * symbols.toFinset.card := Finset.card_product _ _
    _ ≤ names.length * symbols.length :=
      Nat.mul_le_mul names.toFinset_card_le symbols.toFinset_card_le

/-- A pass is repeated from a family on, without limit, until it adds nothing; the number is that
of the passes. -/
inductive Stabilizes (pass : SetFamily → SetFamily) : SetFamily → SetFamily → Nat → Prop where
  | last {f : SetFamily} : (pass f).total = f.total → Stabilizes pass f (pass f) 1
  | further {f result : SetFamily} {passes : Nat} : (pass f).total ≠ f.total →
      Stabilizes pass (pass f) result passes → Stabilizes pass f result (passes + 1)

section Saturation

variable {pass : SetFamily → SetFamily} {Inv : SetFamily → Prop} {f result : SetFamily}
  (grows : ∀ f, Within f (pass f)) (keeps : ∀ f, Inv f → Inv (pass f))

include grows keeps

/-- A pass that only adds, and that keeps an invariant which bounds the size of a family, adds
nothing in the end, before the fuel of a saturation runs out. -/
theorem stabilizes_saturate {bound : Nat} (bounded : ∀ f, Inv f → f.total ≤ bound) (fuel : Nat)
    (start : Inv f) (enough : bound < fuel + f.total) :
    Stabilizes pass f (saturate pass fuel f).1 (saturate pass fuel f).2 := by
  induction fuel generalizing f with
  | zero =>
    have h := bounded f start
    omega
  | succ fuel ih =>
    simp only [saturate]
    split
    · rename_i same
      exact .last same
    · rename_i changed
      have le := (grows f).total_le
      exact .further changed (ih (keeps f start) (by omega))

/-- The result has the invariant, holds all from before, and is not changed by a further pass. -/
theorem Stabilizes.stable {passes : Nat} (h : Stabilizes pass f result passes) (start : Inv f) :
    Inv result ∧ Within f result ∧ ∃ last, Inv last ∧ result = pass last ∧ Within result last := by
  induction h with
  | @last f same => exact ⟨keeps f start, grows f, f, start, rfl, (grows f).of_total_eq same⟩
  | @further f result passes _ _ ih =>
    obtain ⟨inv, within, fixed⟩ := ih (keeps f start)
    exact ⟨inv, (grows f).trans within, fixed⟩

end Saturation

/-- A pass that runs through a list and adds at each element only adds. -/
theorem within_foldl {α : Type} (act : SetFamily → α → SetFamily)
    (grows : ∀ f a, Within f (act f a)) (as : List α) (f : SetFamily) :
    Within f (as.foldl act f) := by
  induction as generalizing f with
  | nil => exact Within.refl f
  | cons a as ih => exact (grows f a).trans (ih (act f a))

/-- What the run through a list has added at one of its elements is in the result, and was added
to a family that held all from before. -/
theorem foldl_acts {α : Type} (act : SetFamily → α → SetFamily)
    (grows : ∀ f a, Within f (act f a)) (as : List α) (f : SetFamily) (a : α) (mem : a ∈ as) :
    ∃ g, Within f g ∧ Within (act g a) (as.foldl act f) := by
  induction as generalizing f with
  | nil => cases mem
  | cons b bs ih =>
    rcases List.mem_cons.mp mem with rfl | mem
    · exact ⟨f, Within.refl f, within_foldl act grows bs _⟩
    · obtain ⟨g, before, after⟩ := ih (act f b) mem
      exact ⟨g, (grows f b).trans before, after⟩

/-- An invariant that every addition keeps holds after the run through a list. -/
theorem foldl_keeps {α : Type} (act : SetFamily → α → SetFamily) (Inv : SetFamily → Prop)
    (as : List α) (keeps : ∀ f, ∀ a ∈ as, Inv f → Inv (act f a)) (f : SetFamily) (start : Inv f) :
    Inv (as.foldl act f) := by
  induction as generalizing f with
  | nil => exact start
  | cons a as ih =>
    exact ih (fun f b mem => keeps f b (List.mem_cons_of_mem _ mem)) (act f a)
      (keeps f a List.mem_cons_self start)

end TableAsm.SetFamily
