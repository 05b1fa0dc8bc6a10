import TableAsm.Instruction
import TableAsm.Proofs.Printing.Escapes

/-! The printed form of an instruction. Without floats it gives the instruction back, whatever
text its names, strings and keys contain; floats or not, it is one line. Main statements:
`Instruction.render_selfDelimiting` and `Instruction.shows_render`. -/
namespace TableAsm

theorem quoted_selfDelimiting :
    SelfDelimiting (fun _ : String => True) (fun s => (quoted s).toList) := by
  simp only [quoted, String.toList_ofList]
  exact Quoted.encode_selfDelimiting.comap (fun _ _ => trivial)
    fun _ _ _ _ => String.toList_inj.mp

theorem shows_quoted (text : String) : Shows (quoted text).toList := by
  rw [quoted, String.toList_ofList]
  exact Quoted.shows_encode text.toList

namespace Decimal

/-! Numbers are digits, behind a minus sign if they are negative -/

theorem toList_toString (n : Nat) : (toString n).toList = Nat.toDigits 10 n := by
  rw [Nat.toString_eq_ofList_toDigits, String.toList_ofList]

theorem toList_toString_negSucc (n : Nat) :
    (toString (Int.negSucc n)).toList = '-' :: (toString (n + 1)).toList := by
  simp [toString, Int.repr]

theorem isDigit_of_mem {n : Nat} {c : Char} (mem : c ∈ (toString n).toList) :
    c.isDigit = true := by
  rw [toList_toString] at mem
  exact Nat.isDigit_of_mem_toDigits (by decide) (by decide) mem

theorem eq_or_isDigit_of_mem {n : Int} {c : Char} (mem : c ∈ (toString n).toList) :
    c = '-' ∨ c.isDigit = true := by
  cases n with
  | ofNat n => exact .inr (isDigit_of_mem mem)
  | negSucc n =>
    rw [toList_toString_negSucc, List.mem_cons] at mem
    exact mem.imp_right isDigit_of_mem

theorem nat_inj {m n : Nat} (same : (toString m).toList = (toString n).toList) : m = n := by
  have value := congrArg (fun ds => Nat.ofDigitChars 10 ds 0) same
  simpa only [toList_toString, Nat.ofDigitChars_ten_toDigits] using value

theorem int_inj {m n : Int} (same : (toString m).toList = (toString n).toList) : m = n := by
  have unsigned (n : Nat) : '-' ∉ (toString n).toList :=
    fun mem => absurd (isDigit_of_mem mem) (by decide)
  cases m with
  | ofNat m =>
    cases n with
    | ofNat n => exact congrArg _ (nat_inj same)
    | negSucc n =>
      rw [toList_toString_negSucc] at same
      exact absurd (same ▸ List.mem_cons_self) (unsigned m)
  | negSucc m =>
    rw [toList_toString_negSucc] at same
    cases n with
    | ofNat n => exact absurd (same ▸ List.mem_cons_self) (unsigned n)
    | negSucc n =>
      rw [toList_toString_negSucc] at same
      have eq := nat_inj (List.cons.inj same).2
      exact congrArg _ (Nat.succ.inj eq)

theorem isPlain_of_isDigit {c : Char} (digit : c.isDigit = true) : Quoted.isPlain c = true := by
  have range : 48 ≤ c.toNat ∧ c.toNat ≤ 57 := by
    simpa [Char.isDigit, UInt32.le_iff_toNat_le] using digit
  have low : ' ' ≤ c := by
    show (32 : UInt32) ≤ c.val
    rw [UInt32.le_iff_toNat_le]
    exact Nat.le_trans (by decide) range.1
  have high : c < '\x7f' := by
    show c.val < 127
    rw [UInt32.lt_iff_toNat_lt]
    exact Nat.lt_of_le_of_lt range.2 (by decide)
  simp [Quoted.isPlain, low, high]

theorem shows_nat (n : Nat) : Shows (toString n).toList :=
  fun _ mem => isPlain_of_isDigit (isDigit_of_mem mem)

theorem shows_int (n : Int) : Shows (toString n).toList := by
  intro c mem
  rcases eq_or_isDigit_of_mem mem with rfl | digit
  · decide
  · exact isPlain_of_isDigit digit

theorem shows_positional {digits : List Char} (h : Shows digits) (order : Int) :
    Shows (positional digits order) := by
  have zeros (n : Nat) : Shows (List.replicate n '0') := .replicate n (by decide)
  have point : Shows ['0', '.'] := by decide
  have fraction := h.sublist (List.drop_sublist (order.toNat + 1) digits)
  unfold positional
  split
  · exact Shows.append.mpr ⟨Shows.append.mpr ⟨point, zeros _⟩, h⟩
  · simp only [Shows.append]
    refine ⟨⟨⟨h.sublist (List.take_sublist _ _), zeros _⟩, point.sublist (by simp)⟩, ?_⟩
    split
    · exact point.sublist (by simp)
    · exact fraction

theorem shows_exponential {digits : List Char} (h : Shows digits) (order : Int) :
    Shows (exponential digits order) := by
  have mark : Shows ['e'] := by decide
  have point : Shows ['.'] := by decide
  have behind : Shows (['e'] ++ (toString order).toList) :=
    Shows.append.mpr ⟨mark, shows_int order⟩
  have further : Shows (['.'] ++ digits.drop 1) :=
    Shows.append.mpr ⟨point, h.sublist (List.drop_sublist _ _)⟩
  unfold exponential
  refine Shows.append.mpr ⟨Shows.append.mpr ⟨h.sublist (List.take_sublist _ _), ?_⟩, behind⟩
  split
  · exact further.sublist (List.nil_sublist _)
  · exact further

theorem shows_layout (layout : Layout) (s : Scaled) : Shows (layout.render s) := by
  have digits : Shows ((toString s.digits).toList.reverse.dropWhile (· == '0')).reverse := by
    refine (shows_nat s.digits).sublist ?_
    have inside := (List.dropWhile_sublist (· == '0') (l := (toString s.digits).toList.reverse)).reverse
    rwa [List.reverse_reverse] at inside
  unfold Layout.render
  simp only
  split
  · exact shows_positional digits _
  · exact shows_exponential digits _

theorem shows_renderFloat (x : Float) : Shows (renderFloat x).toList := by
  have sign : ∀ negative : Prop, [Decidable negative] →
      Shows (if negative then "-" else "").toList := by
    intro negative _
    split <;> decide
  unfold renderFloat
  split
  · decide
  · simp only
    split
    · rw [String.toList_append, Shows.append]
      exact ⟨sign _, by decide⟩
    · split
      · rw [String.toList_append, Shows.append]
        exact ⟨sign _, by decide⟩
      · rw [String.toList_append, Shows.append, String.toList_ofList]
        exact ⟨sign _, shows_layout _ _⟩

end Decimal

namespace Value

theorem toList_tagged (v : Value) :
    v.tagged.toList = v.tag.toList ++ (['('] ++ (v.display.toList ++ [')'])) := by
  simp [tagged]

theorem shows_display (v : Value) : Shows v.display.toList := by
  cases v with
  | int n => exact Decimal.shows_int n
  | uint n => exact Decimal.shows_nat n
  | float x => exact Decimal.shows_renderFloat x
  | str s => exact shows_quoted s

theorem shows_tagged (v : Value) : Shows v.tagged.toList := by
  have tag : Shows v.tag.toList := by cases v <;> rw [Value.tag] <;> decide
  simp only [toList_tagged, Shows.append]
  exact ⟨tag, by decide, shows_display v, by decide⟩

/-- The tag says of which kind a value is, and a bracket or a quote where it ends. -/
theorem tagged_selfDelimiting :
    SelfDelimiting (fun v : Value => v.kind ≠ .float) (fun v => v.tagged.toList) := by
  have unclosed : ∀ n : Int, ')' ∉ (toString n).toList := by
    intro n mem
    rcases Decimal.eq_or_isDigit_of_mem mem with eq | digit
    · exact absurd eq (by decide)
    · exact absurd digit (by decide)
  have integer : SelfDelimiting (fun _ : Int => True) fun n => (toString n).toList ++ [')'] :=
    (SelfDelimiting.of_mark ')').comap (fun n _ => unclosed n) fun _ _ _ _ => Decimal.int_inj
  have natural : SelfDelimiting (fun _ : Nat => True) fun n => (toString n).toList ++ [')'] :=
    (SelfDelimiting.of_mark ')').comap (fun n _ => unclosed n) fun _ _ _ _ => Decimal.nat_inj
  intro v w xs ys hv hw same
  simp only [toList_tagged, List.append_assoc] at same
  cases v with
  | float => exact absurd rfl hv
  | int m =>
    cases w with
    | float => exact absurd rfl hw
    | int n =>
      have inner := List.append_cancel_left (List.append_cancel_left same)
      obtain ⟨rfl, rest⟩ := integer trivial trivial (by simp only [List.append_assoc]; exact inner)
      exact ⟨rfl, rest⟩
    | uint | str => simp [tag] at same
  | uint m =>
    cases w with
    | float => exact absurd rfl hw
    | uint n =>
      have inner := List.append_cancel_left (List.append_cancel_left same)
      obtain ⟨rfl, rest⟩ := natural trivial trivial (by simp only [List.append_assoc]; exact inner)
      exact ⟨rfl, rest⟩
    | int | str => simp [tag] at same
  | str s =>
    cases w with
    | float => exact absurd rfl hw
    | str t =>
      have inner := List.append_cancel_left (List.append_cancel_left same)
      obtain ⟨rfl, behind⟩ := quoted_selfDelimiting trivial trivial inner
      exact ⟨rfl, List.append_cancel_left behind⟩
    | int | uint => simp [tag] at same

end Value

namespace Instruction

/-! Lists between brackets -/

theorem intercalate_cons (between item : List Char) (items : List (List Char)) :
    between.intercalate (item :: items) = item ++ items.flatMap (between ++ ·) := by
  induction items generalizing item with
  | nil => simp
  | cons next items ih =>
    rw [List.intercalate_cons_cons, ih, List.flatMap_cons]
    simp only [List.append_assoc]

theorem toList_enclose (opening closing : String) (items : List String) :
    (enclose opening closing items).toList =
      opening.toList ++ ([',', ' '].intercalate (items.map String.toList) ++ closing.toList) := by
  simp [enclose]

theorem shows_enclose {opening closing : String} {items : List String}
    (start : Shows opening.toList) (all : ∀ s ∈ items, Shows s.toList)
    (stop : Shows closing.toList) : Shows (enclose opening closing items).toList := by
  have between : Shows [',', ' '] := by decide
  simp only [toList_enclose, Shows.append]
  refine ⟨start, ?_, stop⟩
  cases items with
  | nil => exact fun c mem => absurd mem List.not_mem_nil
  | cons s items =>
    rw [List.map_cons, intercalate_cons, Shows.append]
    refine ⟨all s List.mem_cons_self, .flatMap fun cs mem => ?_⟩
    obtain ⟨t, inside, rfl⟩ := List.mem_map.mp mem
    exact Shows.append.mpr ⟨between, all t (List.mem_cons_of_mem _ inside)⟩

/-- A list between brackets says where it ends if none of its items begins as the closing
bracket does. -/
theorem enclose_selfDelimiting {α : Type} {P : α → Prop} {write : α → String}
    (h : SelfDelimiting P fun a => (write a).toList) (opening closing : String)
    {last : Char} (closes : closing.toList = [last]) (comma : last ≠ ',')
    (stop : ∀ a, P a → ∀ xs rest, last :: xs ≠ (write a).toList ++ rest) :
    SelfDelimiting (fun as : List α => ∀ a ∈ as, P a)
      fun as => (enclose opening closing (as.map write)).toList := by
  intro as bs xs ys all all' same
  simp only [toList_enclose, closes, List.append_assoc, List.map_map] at same
  have items := List.append_cancel_left same
  have next := h.behind [',', ' ']
  have apart : ∀ a, P a → ∀ xs rest, last :: xs ≠ [',', ' '] ++ (write a).toList ++ rest :=
    fun _ _ _ _ eq => comma (List.cons.inj eq).1
  cases as with
  | nil =>
    cases bs with
    | nil => exact ⟨rfl, (List.cons.inj items).2⟩
    | cons b bs =>
      rw [List.map_cons, intercalate_cons, List.append_assoc] at items
      exact absurd items (stop b (all' b List.mem_cons_self) _ _)
  | cons a as =>
    cases bs with
    | nil =>
      rw [List.map_cons, intercalate_cons, List.append_assoc] at items
      exact absurd items.symm (stop a (all a List.mem_cons_self) _ _)
    | cons b bs =>
      simp only [List.map_cons, intercalate_cons, List.append_assoc, List.flatMap_map] at items
      obtain ⟨rfl, further⟩ := h (all a List.mem_cons_self) (all' b List.mem_cons_self) items
      obtain ⟨rfl, rest⟩ := next.flatMap (fun a mem => all a (List.mem_cons_of_mem _ mem))
        (fun b mem => all' b (List.mem_cons_of_mem _ mem)) (fun a ha => apart a ha xs)
        (fun b hb => apart b hb ys) further
      exact ⟨rfl, (List.cons.inj rest).2⟩

/-! Instructions -/

/-- No operand and no property value is a float. -/
def FloatFree (i : Instruction) : Prop := ∀ v ∈ i.values, v.kind ≠ .float

theorem shows_renderProperty (b : String × Value) : Shows (renderProperty b).toList := by
  have colon : Shows ": ".toList := by decide
  simp only [renderProperty, String.toList_append, Shows.append]
  exact ⟨⟨shows_quoted b.1, colon⟩, b.2.shows_tagged⟩

theorem renderProperty_selfDelimiting :
    SelfDelimiting (fun b : String × Value => b.2.kind ≠ .float)
      fun b => (renderProperty b).toList := by
  intro b b' xs ys hb hb' same
  simp only [renderProperty, String.toList_append, List.append_assoc] at same
  obtain ⟨key, behind⟩ := quoted_selfDelimiting trivial trivial same
  obtain ⟨value, rest⟩ :=
    Value.tagged_selfDelimiting hb hb' (List.append_cancel_left behind)
  exact ⟨Prod.ext key value, rest⟩

theorem toList_render (i : Instruction) :
    i.render.toList =
      "Instruction \x7b name: ".toList ++ ((quoted i.name).toList ++
      (", operands: ".toList ++ ((enclose "[" "]" (i.operands.map Value.tagged)).toList ++
      (", annotations: ".toList ++
        ((enclose "\x7b" "\x7d" (i.annotations.toList.map quoted)).toList ++
      (", properties: ".toList ++
        ((enclose "\x7b" "\x7d" (i.properties.toList.map renderProperty)).toList ++
      " \x7d".toList))))))) := by
  unfold render
  simp only [String.toList_append, List.append_assoc]

/-- Every printed instruction shows as it is, floats included. -/
theorem shows_render (i : Instruction) : Shows i.render.toList := by
  have operands : Shows (enclose "[" "]" (i.operands.map Value.tagged)).toList := by
    refine shows_enclose (by decide) (fun s mem => ?_) (by decide)
    obtain ⟨v, _, rfl⟩ := List.mem_map.mp mem
    exact v.shows_tagged
  have annotations :
      Shows (enclose "\x7b" "\x7d" (i.annotations.toList.map quoted)).toList := by
    refine shows_enclose (by decide) (fun s mem => ?_) (by decide)
    obtain ⟨text, _, rfl⟩ := List.mem_map.mp mem
    exact shows_quoted text
  have properties :
      Shows (enclose "\x7b" "\x7d" (i.properties.toList.map renderProperty)).toList := by
    refine shows_enclose (by decide) (fun s mem => ?_) (by decide)
    obtain ⟨b, _, rfl⟩ := List.mem_map.mp mem
    exact shows_renderProperty b
  simp only [toList_render, Shows.append]
  exact ⟨by decide, shows_quoted i.name, by decide, operands, by decide, annotations,
    by decide, properties, by decide⟩

/-- A printed instruction without floats gives the instruction back. -/
theorem render_selfDelimiting : SelfDelimiting FloatFree fun i => i.render.toList := by
  have notQuoted (text : String) (xs rest : List Char) :
      '\x7d' :: xs ≠ (quoted text).toList ++ rest := by
    simp [quoted, Quoted.encode]
  have square : "]".toList = [']'] := rfl
  have curly : "\x7d".toList = ['\x7d'] := rfl
  have operands := enclose_selfDelimiting Value.tagged_selfDelimiting "[" "]" square (by decide)
    fun v _ xs rest => by cases v <;> simp [Value.toList_tagged, Value.tag]
  have annotations := enclose_selfDelimiting quoted_selfDelimiting "\x7b" "\x7d" curly (by decide)
    fun text _ => notQuoted text
  have properties := enclose_selfDelimiting renderProperty_selfDelimiting "\x7b" "\x7d" curly
    (by decide) fun b _ xs rest => by
      simp only [renderProperty, String.toList_append, List.append_assoc]
      exact notQuoted b.1 xs _
  intro i j xs ys hi hj same
  simp only [toList_render, List.append_assoc] at same
  obtain ⟨name, same⟩ := quoted_selfDelimiting trivial trivial (List.append_cancel_left same)
  obtain ⟨inOrder, same⟩ := operands (fun v mem => hi v (List.mem_append_left _ mem))
    (fun v mem => hj v (List.mem_append_left _ mem)) (List.append_cancel_left same)
  obtain ⟨flags, same⟩ := annotations (fun _ _ => trivial) (fun _ _ => trivial)
    (List.append_cancel_left same)
  obtain ⟨named, same⟩ := properties
    (fun b mem => hi b.2 (List.mem_append_right _ (List.mem_map_of_mem mem)))
    (fun b mem => hj b.2 (List.mem_append_right _ (List.mem_map_of_mem mem)))
    (List.append_cancel_left same)
  refine ⟨?_, List.append_cancel_left same⟩
  cases i
  cases j
  congr 1
  · exact NameSet.ext flags
  · exact NameMap.ext named

-- A name that imitates what stands behind names.
example : (bare "a\", operands: [" [.int (-1)]).render =
    "Instruction \x7b name: \"a\\\", operands: [\", operands: [Int(-1)], annotations: \x7b\x7d, " ++
      "properties: \x7b\x7d \x7d" := by decide +kernel

end Instruction

end TableAsm
