import TableAsm.Text.Quoted
import TableAsm.Text.Blank

/-! Quoted text is read back, whatever stands behind it. A reader undoes one escape at a time and
needs no look at the rest, so quoted texts may stand next to each other and next to fixed text.
Main statements: `Quoted.unescape?_escape`, `Quoted.encode_selfDelimiting` and
`Quoted.shows_encode`. -/
namespace TableAsm

/-- A way of writing is self-delimiting on the things that meet a condition if what is written
gives back both the thing and the text behind it. -/
def SelfDelimiting {α β : Type} (condition : α → Prop) (write : α → List β) : Prop :=
  ∀ ⦃a b : α⦄ ⦃xs ys : List β⦄, condition a → condition b →
    write a ++ xs = write b ++ ys → a = b ∧ xs = ys

namespace SelfDelimiting

variable {α β γ : Type} {P : α → Prop} {Q : γ → Prop} {write : α → List β}

/-- A reader that stops behind what was written shows where that ends. -/
theorem of_reader (read : List β → Option (α × List β))
    (reads : ∀ a, P a → ∀ xs, read (write a ++ xs) = some (a, xs)) : SelfDelimiting P write := by
  intro a b xs ys ha hb same
  have pair : (a, xs) = (b, ys) := Option.some.inj
    ((reads a ha xs).symm.trans ((congrArg read same).trans (reads b hb ys)))
  exact Prod.mk.inj pair

theorem injective (h : SelfDelimiting P write) {a b : α} (ha : P a) (hb : P b)
    (same : write a = write b) : a = b :=
  (h ha hb (congrArg (· ++ []) same)).1

/-- A mark at the end delimits what does not contain it. -/
theorem of_mark (mark : β) : SelfDelimiting (mark ∉ ·) (fun xs : List β => xs ++ [mark]) := by
  intro xs ys us vs absent absent' same
  simp only [List.append_assoc, List.singleton_append] at same
  induction xs generalizing ys with
  | nil =>
    cases ys with
    | nil => exact ⟨rfl, (List.cons.inj same).2⟩
    | cons y ys =>
      have first : mark = y := (List.cons.inj same).1
      exact absurd (first ▸ List.mem_cons_self) absent'
  | cons x xs ih =>
    cases ys with
    | nil =>
      have first : x = mark := (List.cons.inj same).1
      exact absurd (first ▸ List.mem_cons_self) absent
    | cons y ys =>
      obtain ⟨rfl, behind⟩ := List.cons.inj same
      obtain ⟨rfl, rest⟩ := ih (fun mem => absent (List.mem_cons_of_mem _ mem))
        (fun mem => absent' (List.mem_cons_of_mem _ mem)) behind
      exact ⟨rfl, rest⟩

/-- Things that another thing names, written as that one is. -/
theorem comap (h : SelfDelimiting P write) {f : γ → α} (maps : ∀ c, Q c → P (f c))
    (inj : ∀ c d, Q c → Q d → f c = f d → c = d) : SelfDelimiting Q (fun c => write (f c)) := by
  intro c d xs ys hc hd same
  obtain ⟨eq, rest⟩ := h (maps c hc) (maps d hd) same
  exact ⟨inj c d hc hd eq, rest⟩

/-- Fixed text before each thing. -/
theorem behind (h : SelfDelimiting P write) (front : List β) :
    SelfDelimiting P (fun a => front ++ write a) := by
  intro a b xs ys ha hb same
  simp only [List.append_assoc] at same
  exact h ha hb (List.append_cancel_left same)

/-- Things one behind the other, up to a text that none of them begins with. -/
theorem flatMap (h : SelfDelimiting P write) {as bs : List α} {us vs : List β}
    (all : ∀ a ∈ as, P a) (all' : ∀ b ∈ bs, P b)
    (stop : ∀ a, P a → ∀ rest, us ≠ write a ++ rest)
    (stop' : ∀ b, P b → ∀ rest, vs ≠ write b ++ rest)
    (same : as.flatMap write ++ us = bs.flatMap write ++ vs) : as = bs ∧ us = vs := by
  induction as generalizing bs with
  | nil =>
    cases bs with
    | nil => exact ⟨rfl, same⟩
    | cons b bs =>
      simp only [List.flatMap_nil, List.nil_append, List.flatMap_cons, List.append_assoc] at same
      exact absurd same (stop b (all' b List.mem_cons_self) _)
  | cons a as ih =>
    cases bs with
    | nil =>
      simp only [List.flatMap_nil, List.nil_append, List.flatMap_cons, List.append_assoc] at same
      exact absurd same.symm (stop' a (all a List.mem_cons_self) _)
    | cons b bs =>
      simp only [List.flatMap_cons, List.append_assoc] at same
      obtain ⟨rfl, behind⟩ := h (all a List.mem_cons_self) (all' b List.mem_cons_self) same
      obtain ⟨rfl, rest⟩ := ih (fun a mem => all a (List.mem_cons_of_mem _ mem))
        (fun b mem => all' b (List.mem_cons_of_mem _ mem)) behind
      exact ⟨rfl, rest⟩

end SelfDelimiting

namespace Quoted

/-- The number that hexadecimal digits stand for. -/
def hexValue (digits : List Char) : Nat :=
  digits.foldl (fun n d => 16 * n + (Chart.hexDigit? d).getD 0) 0

theorem hexDigit?_digitChar : ∀ d < 16, Chart.hexDigit? d.digitChar = some d := by decide

theorem hexValue_toDigits (n : Nat) : hexValue (Nat.toDigits 16 n) = n := by
  induction n using Nat.strongRecOn with
  | _ n ih =>
    by_cases small : n < 16
    · simp [Nat.toDigits_of_lt_base small, hexValue, hexDigit?_digitChar n small]
    · have last := hexDigit?_digitChar (n % 16) (Nat.mod_lt n (by decide))
      have front := ih (n / 16) (by omega)
      rw [Nat.toDigits_of_base_le (by decide) (by omega)]
      simp only [hexValue, List.foldl_append, List.foldl_cons, List.foldl_nil, last,
        Option.getD_some] at front ⊢
      rw [front]
      omega

theorem exists_of_mem_toDigits {n : Nat} {c : Char} (mem : c ∈ Nat.toDigits 16 n) :
    ∃ d < 16, c = d.digitChar := by
  induction n using Nat.strongRecOn with
  | _ n ih =>
    by_cases small : n < 16
    · rw [Nat.toDigits_of_lt_base small, List.mem_singleton] at mem
      exact ⟨n, small, mem⟩
    · rw [Nat.toDigits_of_base_le (by decide) (by omega), List.mem_append,
        List.mem_singleton] at mem
      rcases mem with mem | mem
      · exact ih (n / 16) (by omega) mem
      · exact ⟨n % 16, Nat.mod_lt n (by decide), mem⟩

/-- Reads what stands behind a backslash, and leaves the rest. -/
def unescapeBehind? : List Char → Option (Char × List Char)
  | '"' :: rest => some ('"', rest)
  | '\\' :: rest => some ('\\', rest)
  | 'n' :: rest => some ('\n', rest)
  | 'r' :: rest => some ('\r', rest)
  | 't' :: rest => some ('\t', rest)
  | '0' :: rest => some ('\x00', rest)
  | 'u' :: '\x7b' :: rest =>
    some (.ofNat (hexValue (rest.takeWhile (· != '\x7d'))), (rest.dropWhile (· != '\x7d')).tail)
  | _ => none

/-- Reads one character as it is written between quotes, and leaves the rest. -/
def unescape? : List Char → Option (Char × List Char)
  | [] => none
  | c :: cs => if c = '\\' then unescapeBehind? cs else some (c, cs)

theorem unescape?_codePoint (c : Char) (rest : List Char) :
    unescape? (codePoint c ++ rest) = some (c, rest) := by
  have unclosed : ∀ d ∈ Nat.toDigits 16 c.toNat, (d != '\x7d') = true := by
    intro d mem
    obtain ⟨n, small, rfl⟩ := exists_of_mem_toDigits mem
    have : ∀ n < 16, (n.digitChar != '\x7d') = true := by decide
    exact this n small
  have layout : codePoint c ++ rest =
      '\\' :: 'u' :: '\x7b' :: (Nat.toDigits 16 c.toNat ++ '\x7d' :: rest) := by
    simp [codePoint]
  rw [layout]
  show some (Char.ofNat (hexValue _), (List.dropWhile _ _).tail) = _
  rw [List.takeWhile_append_of_pos unclosed, List.dropWhile_append_of_pos unclosed]
  simp [hexValue_toDigits]

/-- The reader undoes the escape of every character. -/
theorem unescape?_escape (c : Char) (rest : List Char) :
    unescape? (escape c ++ rest) = some (c, rest) := by
  unfold escape
  split
  case isTrue quote => subst quote; rfl
  case isFalse =>
  split
  case isTrue backslash => subst backslash; rfl
  case isFalse notBackslash =>
  split
  case isTrue feed => subst feed; rfl
  case isFalse =>
  split
  case isTrue carriage => subst carriage; rfl
  case isFalse =>
  split
  case isTrue tab => subst tab; rfl
  case isFalse =>
  split
  case isTrue null => subst null; rfl
  case isFalse =>
  split
  case isTrue => exact if_neg notBackslash
  case isFalse => exact unescape?_codePoint c rest

theorem escape_selfDelimiting : SelfDelimiting (fun _ : Char => True) escape :=
  .of_reader unescape? fun c _ rest => unescape?_escape c rest

/-- No escape begins with the quote that ends a text. -/
theorem escape_ne_quote (c : Char) (behind rest : List Char) :
    '"' :: behind ≠ escape c ++ rest := by
  intro same
  have read := unescape?_escape c rest
  rw [← same] at read
  have eq : '"' = c := congrArg Prod.fst (Option.some.inj read)
  subst eq
  exact absurd (List.cons.inj same).1 (by decide)

/-- A quoted text says where it ends, whatever it contains. -/
theorem encode_selfDelimiting : SelfDelimiting (fun _ : List Char => True) encode := by
  intro text text' xs ys _ _ same
  have inside : text.flatMap escape ++ '"' :: xs = text'.flatMap escape ++ '"' :: ys := by
    simpa [encode] using same
  obtain ⟨eq, rest⟩ := escape_selfDelimiting.flatMap (fun _ _ => trivial) (fun _ _ => trivial)
    (fun c _ => escape_ne_quote c xs) (fun c _ => escape_ne_quote c ys) inside
  exact ⟨eq, (List.cons.inj rest).2⟩

end Quoted

/-- Text that shows as it is, on one line. -/
def Shows (cs : List Char) : Prop := ∀ c ∈ cs, Quoted.isPlain c = true

namespace Shows

variable {cs ds : List Char}

instance : Decidable (Shows cs) := decidable_of_iff (cs.all Quoted.isPlain = true) List.all_eq_true

@[simp] theorem append : Shows (cs ++ ds) ↔ Shows cs ∧ Shows ds := List.forall_mem_append

theorem sublist (h : Shows ds) (inside : cs.Sublist ds) : Shows cs :=
  fun c mem => h c (inside.mem mem)

theorem replicate (n : Nat) {c : Char} (plain : Quoted.isPlain c = true) :
    Shows (List.replicate n c) :=
  fun _ mem => List.eq_of_mem_replicate mem ▸ plain

theorem flatMap {α : Type} {write : α → List Char} {as : List α}
    (all : ∀ a ∈ as, Shows (write a)) : Shows (as.flatMap write) := by
  intro c mem
  obtain ⟨a, inside, mem⟩ := List.mem_flatMap.mp mem
  exact all a inside c mem

end Shows

namespace Quoted

theorem shows_codePoint (c : Char) : Shows (codePoint c) := by
  have plain : ∀ d < 16, isPlain d.digitChar = true := by decide
  simp only [codePoint, Shows.append]
  refine ⟨⟨by decide, fun d mem => ?_⟩, by decide⟩
  obtain ⟨n, small, rfl⟩ := exists_of_mem_toDigits mem
  exact plain n small

theorem shows_escape (c : Char) : Shows (escape c) := by
  unfold escape
  split
  case isTrue => decide
  case isFalse =>
  split
  case isTrue => decide
  case isFalse =>
  split
  case isTrue => decide
  case isFalse =>
  split
  case isTrue => decide
  case isFalse =>
  split
  case isTrue => decide
  case isFalse =>
  split
  case isTrue => decide
  case isFalse =>
  split
  case isTrue plain => exact fun d mem => List.mem_singleton.mp mem ▸ plain
  case isFalse => exact shows_codePoint c

theorem shows_encode (text : List Char) : Shows (encode text) := by
  have quote : Shows ['"'] := by decide
  have inside : Shows (text.flatMap escape) := .flatMap fun c _ => shows_escape c
  exact Shows.append.mpr ⟨quote, Shows.append.mpr ⟨inside, quote⟩⟩

/-! Line breaks are hidden -/

/-- Characters that end a line wherever they stand. -/
def lineBreaks : List Char := ['\n', '\x0b', '\x0c', '\r', '\x85', '\u2028', '\u2029']

theorem contains_unions (sets : List CharSet) (c : Char) :
    (CharSet.unions sets).contains c = sets.any (·.contains c) := by
  induction sets with
  | nil => rfl
  | cons s sets ih =>
    rw [List.any_cons, ← ih]
    exact CharSet.contains_union s _ c

/-- Controls and separators beyond the basic letters are hidden, unless a later edition shows
them. -/
theorem isPlain_eq_false {c : Char} {s : CharSet} (high : ¬ c < '\x7f')
    (known : s ∈ [Category.control, Category.lineSeparator, Category.paragraphSeparator])
    (has : s.contains c = true)
    (kept : (Later.visible.union (.ofChart ["FF9E-FF9F"])).contains c = false) :
    isPlain c = false := by
  have hides : hidden.contains c = true := by
    rw [hidden, CharSet.contains_diff, kept, contains_unions]
    simp only [List.mem_cons, List.not_mem_nil, or_false] at known
    rcases known with rfl | rfl | rfl <;> simp [Category.other, contains_unions, has]
  simp [isPlain, high, hides]

/-- No character that ends a line stands for itself. -/
theorem isPlain_lineBreak : ∀ c ∈ lineBreaks, isPlain c = false := by
  have kept : ['\x85', '\u2028', '\u2029'].all
      (fun c => !(Later.visible.union (.ofChart ["FF9E-FF9F"])).contains c) = true := by
    decide +kernel
  simp only [List.all_cons, List.all_nil, Bool.and_eq_true, Bool.not_eq_true', and_true] at kept
  obtain ⟨nextLine, line, paragraph⟩ := kept
  simp only [lineBreaks, List.forall_mem_cons, List.not_mem_nil, false_imp_iff, implies_true,
    and_true]
  refine ⟨by decide, by decide, by decide, by decide,
    isPlain_eq_false (s := Category.control) (by decide) (by simp) ?_ nextLine,
    isPlain_eq_false (s := Category.lineSeparator) (by decide) (by simp) ?_ line,
    isPlain_eq_false (s := Category.paragraphSeparator) (by decide) (by simp) ?_ paragraph⟩
  all_goals decide +kernel

end Quoted

theorem Shows.not_mem_lineBreaks {cs : List Char} (h : Shows cs) {c : Char} (mem : c ∈ cs) :
    c ∉ Quoted.lineBreaks := by
  intro breaks
  have plain := h c mem
  rw [Quoted.isPlain_lineBreak c breaks] at plain
  exact absurd plain (by decide)

end TableAsm
