import TableAsm.CommandLine
import TableAsm.Proofs.Printing.Instructions

/-! What the command line prints of a program: one line for each instruction, with its address or
without. The printed text tells two programs without floats apart, since no line goes on beyond
its instruction. Main statement: `print_unambiguous`. -/
namespace TableAsm

def Program.FloatFree (p : Program) : Prop := ∀ i ∈ p, i.FloatFree

theorem Error.exitCode_ne_zero (e : Error) : e.exitCode ≠ 0 := by
  rw [exitCode]
  cases e.diagnostic <;> simp [Diagnostic.exitCode]

namespace CommandLine

/-- Text that ends each line with a line feed gives the lines back. -/
theorem lines_inj {ls ms : List (List Char)} (one : ∀ l ∈ ls, '\n' ∉ l) (one' : ∀ m ∈ ms, '\n' ∉ m)
    (same : ls.flatMap (· ++ ['\n']) = ms.flatMap (· ++ ['\n'])) : ls = ms := by
  have stop (l rest : List Char) : [] ≠ l ++ ['\n'] ++ rest := by simp
  have behind : ls.flatMap (· ++ ['\n']) ++ [] = ms.flatMap (· ++ ['\n']) ++ [] := by rw [same]
  exact ((SelfDelimiting.of_mark '\n').flatMap one one' (fun l _ => stop l) (fun l _ => stop l)
    behind).1

/-- The lines of a program. In front of an instruction stands what its index alone tells. -/
def lines (front : Nat → List Char) (p : Program) : List (List Char) :=
  p.zipIdx.map fun i => front i.2 ++ i.1.render.toList

theorem newline_not_mem_lines {front : Nat → List Char} (showing : ∀ n, Shows (front n))
    (p : Program) : ∀ l ∈ lines front p, '\n' ∉ l := by
  intro l mem breaks
  obtain ⟨i, _, rfl⟩ := List.mem_map.mp mem
  have plain : Shows (front i.2 ++ i.1.render.toList) :=
    Shows.append.mpr ⟨showing i.2, i.1.shows_render⟩
  exact plain.not_mem_lineBreaks breaks (by decide)

theorem eq_of_lines {front : Nat → List Char} {p q : Program} (hp : p.FloatFree)
    (hq : q.FloatFree) (same : lines front p = lines front q) : p = q := by
  have length : p.length = q.length := by simpa [lines] using congrArg List.length same
  refine List.ext_getElem length fun k hk hk' => ?_
  have line : front k ++ p[k].render.toList = front k ++ q[k].render.toList := by
    simpa [lines, hk, hk'] using congrArg (·[k]?) same
  exact Instruction.render_selfDelimiting.injective (hp _ (List.getElem_mem hk))
    (hq _ (List.getElem_mem hk')) (List.append_cancel_left line)

/-! Without addresses -/

theorem toList_listing (p : Program) :
    (listing p).toList = (lines (fun _ => []) p).flatMap (· ++ ['\n']) := by
  have ended (i : Instruction) : (i.render ++ "\n").toList = i.render.toList ++ ['\n'] := by
    rw [String.toList_append]
    exact congrArg _ (by decide)
  have unnumbered : p = p.zipIdx.map Prod.fst := (List.zipIdx_map_fst 0 p).symm
  rw [listing, String.toList_join, lines, List.flatMap_map, List.flatMap_map]
  conv => lhs; rw [unnumbered, List.flatMap_map]
  simp only [ended, List.nil_append]

theorem listing_inj {p q : Program} (hp : p.FloatFree) (hq : q.FloatFree)
    (same : listing p = listing q) : p = q := by
  have text := congrArg String.toList same
  rw [toList_listing, toList_listing] at text
  have plain : ∀ n : Nat, Shows ((fun _ => []) n) := fun _ _ mem => absurd mem List.not_mem_nil
  exact eq_of_lines hp hq
    (lines_inj (newline_not_mem_lines plain p) (newline_not_mem_lines plain q) text)

/-! With addresses -/

/-- The width of the column of addresses, which depends on their number alone. -/
def addressWidth (count : Nat) : Nat :=
  ((List.range count).map fun index => Columns.ofText (address index)).foldl max 0

def addressCell (count index : Nat) : List Char :=
  (Grid.pad (addressWidth count) (address index)).toList

theorem columnWidth_addressRows (p : Program) :
    Grid.columnWidth (p.zipIdx.map addressRow) 0 = addressWidth p.length := by
  have cells : ((p.zipIdx.map addressRow).map fun row => (row[0]?.map Columns.ofText).getD 0) =
      (p.zipIdx.map Prod.snd).map fun index => Columns.ofText (address index) := by
    simp only [List.map_map, addressRow, Function.comp_def, List.getElem?_cons_zero,
      Option.map_some, Option.getD_some]
  rw [Grid.columnWidth, cells, List.zipIdx_map_snd, ← List.range_eq_range']
  rfl

theorem toList_addressGrid (p : Program) :
    (addressGrid p).toList =
      (lines (addressCell p.length) p).flatMap (· ++ ['\n']) ++ ['\n'] := by
  have row (i : Instruction × Nat) (w : Nat) (widths : List Nat) :
      (Grid.renderRow (w :: widths) (addressRow i)).toList =
        (Grid.pad w (address i.2)).toList ++ i.1.render.toList ++ ['\n'] := by
    simp [addressRow, Grid.renderRow]
  have widths : (List.range 2).map (Grid.columnWidth (p.zipIdx.map addressRow)) =
      addressWidth p.length :: [Grid.columnWidth (p.zipIdx.map addressRow) 1] :=
    congrArg (· :: _) (columnWidth_addressRows p)
  rw [addressGrid, Grid.render, widths, String.toList_append, String.toList_join, List.flatMap_map,
    lines, List.flatMap_map, List.flatMap_map]
  simp only [row, addressCell, String.reduceToList]

theorem shows_addressCell (count index : Nat) : Shows (addressCell count index) := by
  have upper : ∀ d < 16, Quoted.isPlain d.digitChar.toUpper = true := by decide
  have digits : Shows ((Nat.toDigits 16 index).map Char.toUpper) := by
    intro c mem
    obtain ⟨d, inside, rfl⟩ := List.mem_map.mp mem
    obtain ⟨n, small, rfl⟩ := Quoted.exists_of_mem_toDigits inside
    exact upper n small
  have start : Shows "0x".toList := by decide
  have stop : Shows ":".toList := by decide
  simp only [addressCell, Grid.pad, address, String.toList_append, String.toList_ofList,
    Shows.append]
  exact ⟨⟨⟨start, .replicate _ (by decide), digits⟩, stop⟩, .replicate _ (by decide)⟩

theorem addressGrid_inj {p q : Program} (hp : p.FloatFree) (hq : q.FloatFree)
    (same : addressGrid p = addressGrid q) : p = q := by
  have text := congrArg String.toList same
  rw [toList_addressGrid, toList_addressGrid] at text
  have rows := lines_inj (newline_not_mem_lines (shows_addressCell p.length) p)
    (newline_not_mem_lines (shows_addressCell q.length) q) (List.append_cancel_right text)
  have length : p.length = q.length := by simpa [lines] using congrArg List.length rows
  rw [length] at rows
  exact eq_of_lines hp hq rows

/-! Either way -/

/-- A listing begins with an instruction and a grid with an address. -/
theorem listing_ne_addressGrid (p q : Program) : listing p ≠ addressGrid q := by
  intro same
  have text := congrArg String.toList same
  rw [toList_listing, toList_addressGrid] at text
  cases p with
  | nil => simp [lines] at text
  | cons i p =>
    have starts : ∃ rest, i.render.toList = 'I' :: rest := ⟨_, i.toList_render⟩
    obtain ⟨rest, starts⟩ := starts
    cases q with
    | nil => simp [lines, starts] at text
    | cons j q => simp [lines, starts, addressCell, Grid.pad, address] at text

section Runs

variable {files files' : Files} {env env' : Environment} {o o' : Options} {input input' : String}
  {p q : Program}

/-- A run with these options reads its input as a program, and so prints it. -/
structure Prints (files : Files) (env : Environment) (o : Options) (input : String)
    (p : Program) : Prop where
  reads : o.tokensOnly = false
  program : ∃ source f, files input = .ok source ∧
    FrontEnd.load files (Config.resolve env o.lexicon o.grammar) = .ok f ∧
    f.readProgram source = .ok p

theorem Prints.stdout (h : Prints files env o input p) :
    (run files env o input).stdout = if o.addresses then addressGrid p else listing p := by
  obtain ⟨source, f, given, loaded, read⟩ := h.program
  simp [run, work, given, loaded, h.reads, read]

/-- The runs that succeed without listing tokens are those that print a program. -/
theorem exists_prints_iff :
    (∃ p, Prints files env o input p) ↔
      o.tokensOnly = false ∧ (run files env o input).status = 0 := by
  constructor
  · rintro ⟨p, reads, source, f, given, loaded, read⟩
    exact ⟨reads, by simp [run, work, given, loaded, reads, read]⟩
  · rintro ⟨reads, success⟩
    cases given : files input with
    | error e => simp [run, work, given, Error.exitCode_ne_zero] at success
    | ok source =>
      cases loaded : FrontEnd.load files (Config.resolve env o.lexicon o.grammar) with
      | error e => simp [run, work, given, loaded, Error.exitCode_ne_zero] at success
      | ok f =>
        cases read : f.readProgram source with
        | error e => simp [run, work, given, loaded, reads, read, Error.exitCode_ne_zero] at success
        | ok p => exact ⟨p, reads, source, f, given, loaded, read⟩

/-- Two runs that print different programs without floats never have the same output, whichever
way each of them lists its program. -/
theorem Prints.unambiguous (hp : Prints files env o input p)
    (hq : Prints files' env' o' input' q) (free : p.FloatFree) (free' : q.FloatFree)
    (same : (run files env o input).stdout = (run files' env' o' input').stdout) : p = q := by
  rw [hp.stdout, hq.stdout] at same
  split at same
  case isTrue =>
    split at same
    case isTrue => exact addressGrid_inj free free' same
    case isFalse => exact absurd same.symm (listing_ne_addressGrid q p)
  case isFalse =>
    split at same
    case isTrue => exact absurd same (listing_ne_addressGrid p q)
    case isFalse => exact listing_inj free free' same

end Runs

/-- The printed form is unambiguous. Instructions without floats are equal if their texts are, no
text of an instruction holds a line break, and what is printed of two programs without floats is
the same only if they are. -/
theorem print_unambiguous :
    (∀ i j : Instruction, i.FloatFree → j.FloatFree → i.render = j.render → i = j) ∧
    (∀ i : Instruction, ∀ c ∈ i.render.toList, c ∉ Quoted.lineBreaks) ∧
    (∀ p q : Program, p.FloatFree → q.FloatFree → listing p = listing q → p = q) ∧
    ∀ {files files' : Files} {env env' : Environment} {o o' : Options} {input input' : String}
      {p q : Program}, Prints files env o input p → Prints files' env' o' input' q →
      p.FloatFree → q.FloatFree →
      (run files env o input).stdout = (run files' env' o' input').stdout → p = q := by
  refine ⟨fun i j hi hj same => ?_, fun i c mem => i.shows_render.not_mem_lineBreaks mem,
    fun p q hp hq => listing_inj hp hq, Prints.unambiguous⟩
  exact Instruction.render_selfDelimiting.injective hi hj (congrArg String.toList same)

end CommandLine

end TableAsm
