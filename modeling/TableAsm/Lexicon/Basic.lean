import TableAsm.Pattern.Matching

/-!
Lexicons: the token kinds of a language in order of priority. A kind matches a candidate text
by a pattern, or literally by its name. Candidates are matched while they grow: a trial holds
the state of every entry for the text read so far.
-/
namespace TableAsm

/-- What texts belong to a token kind. -/
inductive Matcher where
  | literal (text : List Char)
  | pattern (p : Pattern)
deriving DecidableEq, Repr

/-- The state of one matcher for a candidate that grows. -/
inductive Progress where
  /-- What has to follow for a literal; nothing once the candidate differs from it. -/
  | literal (rest : Option (List Char))
  | pattern (scan : Scan)

namespace Matcher

def start : Matcher → Progress
  | literal text => .literal (some text)
  | pattern p => .pattern (.start p)

end Matcher

namespace Progress

def step (c : Char) : Progress → Progress
  | literal (some (d :: rest)) => literal (if c = d then some rest else none)
  | literal _ => literal none
  | pattern scan => pattern (scan.step c)

def accepts : Progress → Bool
  | literal (some []) => true
  | literal _ => false
  | pattern scan => scan.accepts

end Progress

/-- Whether a matcher accepts all of a candidate. -/
def Matcher.accepts (m : Matcher) (candidate : List Char) : Bool :=
  (candidate.foldl (fun p c => p.step c) m.start).accepts

namespace Progress

/-- A literal that differs from the candidate is lost for good. -/
theorem accepts_foldl_literal_none (cs : List Char) :
    (cs.foldl (fun p c => p.step c) (literal none)).accepts = false := by
  induction cs with
  | nil => rfl
  | cons c cs ih => exact ih

theorem accepts_foldl_literal_some (rest cs : List Char) :
    (cs.foldl (fun p c => p.step c) (literal (some rest))).accepts = decide (cs = rest) := by
  induction cs generalizing rest with
  | nil => cases rest <;> simp [accepts]
  | cons c cs ih =>
    rw [List.foldl_cons]
    cases rest with
    | nil => exact accepts_foldl_literal_none cs
    | cons d rest =>
      by_cases h : c = d
      · have grown : (literal (some (d :: rest))).step c = literal (some rest) := by
          simp [step, h]
        rw [grown, ih, h]
        simp
      · have lost : (literal (some (d :: rest))).step c = literal none := by
          simp [step, h]
        rw [lost, accepts_foldl_literal_none]
        simp [h]

theorem foldl_pattern (scan : Scan) (cs : List Char) :
    cs.foldl (fun p c => p.step c) (pattern scan) = pattern (cs.foldl Scan.step scan) := by
  induction cs generalizing scan with
  | nil => rfl
  | cons c cs ih => exact ih (scan.step c)

end Progress

namespace Matcher

/-- A literal accepts its own text only. -/
@[simp] theorem accepts_literal (text candidate : List Char) :
    (literal text).accepts candidate = decide (candidate = text) :=
  Progress.accepts_foldl_literal_some text candidate

/-- A pattern accepts the candidates in which it is found. -/
@[simp] theorem accepts_pattern (p : Pattern) (candidate : List Char) :
    (pattern p).accepts candidate = p.foundIn candidate := by
  rw [accepts, start, Progress.foldl_pattern]
  rfl

end Matcher

structure Entry where
  kind : String
  matcher : Matcher
  /-- Whether tokens of this kind are thrown away. -/
  ignored : Bool
deriving DecidableEq, Repr

/-- Entries in order of priority. -/
structure Lexicon where
  entries : List Entry
deriving DecidableEq, Repr

/-- The entries of a lexicon with their states for one candidate. -/
abbrev Trial := List (Entry × Progress)

namespace Trial

def step (t : Trial) (c : Char) : Trial := t.map fun (e, p) => (e, p.step c)

/-- The first entry that accepts the candidate. -/
def winner (t : Trial) : Option Entry := (t.find? fun (_, p) => p.accepts).map (·.1)

end Trial

namespace Lexicon

def kinds (l : Lexicon) : List String := l.entries.map (·.kind)

def isIgnored (l : Lexicon) (kind : String) : Bool :=
  l.entries.any fun e => e.kind == kind && e.ignored

/-- Whether all of a candidate is a token of a kind. -/
def accepts (l : Lexicon) (candidate kind : String) : Bool :=
  l.entries.any fun e => e.kind == kind && e.matcher.accepts candidate.toList

/-- The trial of the empty candidate. -/
def trial (l : Lexicon) : Trial := l.entries.map fun e => (e, e.matcher.start)

/-- The first entry, in order of priority, that accepts all of a candidate. -/
def classify (l : Lexicon) (candidate : List Char) : Option Entry :=
  l.entries.find? fun e => e.matcher.accepts candidate

/-- A trial carries the states that each matcher reaches by itself. -/
theorem trial_foldl (l : Lexicon) (cs : List Char) :
    cs.foldl Trial.step l.trial =
      l.entries.map fun e => (e, cs.foldl (fun p c => p.step c) e.matcher.start) := by
  suffices h : ∀ (es : List Entry) (f : Entry → Progress),
      cs.foldl Trial.step (es.map fun e => (e, f e)) =
        es.map fun e => (e, cs.foldl (fun p c => p.step c) (f e)) from h l.entries _
  intro es f
  induction cs generalizing f with
  | nil => rfl
  | cons c cs ih =>
    have step : Trial.step (es.map fun e => (e, f e)) c = es.map fun e => (e, (f e).step c) := by
      simp [Trial.step]
    rw [List.foldl_cons, step, ih]
    rfl

/-- Growing a trial finds the entry that classifying the whole candidate finds. -/
theorem winner_trial_foldl (l : Lexicon) (cs : List Char) :
    (cs.foldl Trial.step l.trial).winner = l.classify cs := by
  rw [trial_foldl, Trial.winner, List.find?_map, classify]
  simp only [Function.comp_def, Matcher.accepts]
  cases List.find? _ l.entries <;> rfl

end Lexicon

end TableAsm
