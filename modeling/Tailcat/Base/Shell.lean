import Mathlib.Tactic

/-!
# Shell words

How a POSIX shell splits a command line into words and removes their quotes, for command lines in
which nothing is expanded; and the percent expansion that `ssh` applies to a command line before it
is given to the shell.

Texts that stand for a word are composed of texts that stand for parts of it, so that the result for
a quoting function follows from what it does to one octet.

## Main definitions

* `words`: the words of a command line, unless something unquoted has a meaning of its own
* `percentExpand`: percent expansion, with the values of the percent sequences
* `Copies`, `Spells`: a text inside single quotes, and a text that stands for a word
* `Expands`: a text before and after percent expansion

## Main results

* `Copies.flatMap`, `Expands.flatMap`: from the octets of a text to the text
* `words_intercalate`: texts that stand for words, with blanks between them
-/

namespace Shell

/-! ## Octets with a meaning -/

/-- `'\''` -/
def apostrophe : UInt8 := 0x27

/-- `'"'` -/
def quote : UInt8 := 0x22

/-- `'\\'` -/
def backslash : UInt8 := 0x5c

/-- `'%'` -/
def percent : UInt8 := 0x25

/-- `' '` -/
def space : UInt8 := 0x20

/-- `'\t'` -/
def tab : UInt8 := 0x09

/-- `'\n'` -/
def newline : UInt8 := 0x0a

/-- The octets that need quoting, or may need it: newline and `|&;<>()$` and the backquote, and
`*?[#~=%` and the reserved words `{`, `}` and `!`. -/
def special : List UInt8 :=
  [newline, 0x7c, 0x26, 0x3b, 0x3c, 0x3e, 0x28, 0x29, 0x24, 0x60, 0x2a, 0x3f, 0x5b, 0x23, 0x7e,
    0x3d, percent, 0x7b, 0x7d, 0x21]

/-- The octets of `special` that keep their meaning inside double quotes. -/
def expanding : List UInt8 := [0x24, 0x60]

/-! ## Splitting and quote removal -/

/-- Which quotation the next character is in, and whether a backslash stands before it. -/
inductive Mode
  | plain
  | single
  | double
  | escape
  | doubleEscape
  deriving DecidableEq

/-- A word without its quotes, and whether it had any. A word that had quotes is no reserved word,
alias or assignment. -/
structure Word where
  octets : List UInt8 := []
  quoted : Bool := false
  deriving DecidableEq

/-- How far a command line is read: the word under way, if any, and the words before it. -/
structure State where
  mode : Mode := .plain
  word : Option Word := none
  words : List Word := []
  deriving DecidableEq

namespace State

/-- The word under way, or a new one. -/
def current (s : State) : Word := s.word.getD {}

/-- One character more for the word under way, which begins with it if there is none. -/
def add (s : State) (c : UInt8) : State :=
  { s with word := some { s.current with octets := s.current.octets ++ [c] } }

/-- A quoting character begins; the word is there even if nothing is quoted. -/
def enter (s : State) (mode : Mode) : State :=
  { s with mode, word := some { s.current with quoted := true } }

/-- The word under way is complete, if there is one. -/
def endWord (s : State) : State := { s with word := none, words := s.words ++ s.word.toList }

/-- One octet, unless it has a meaning of its own. -/
def step (s : State) (c : UInt8) : Option State :=
  match s.mode with
  | .plain =>
    if c = space ∨ c = tab then some s.endWord
    else if c = apostrophe then some (s.enter .single)
    else if c = quote then some (s.enter .double)
    else if c = backslash then some (s.enter .escape)
    else if c ∈ special then none
    else some (s.add c)
  | .single => if c = apostrophe then some { s with mode := .plain } else some (s.add c)
  | .double =>
    if c = quote then some { s with mode := .plain }
    else if c = backslash then some { s with mode := .doubleEscape }
    else if c ∈ expanding then none
    else some (s.add c)
  -- A backslash and a newline are removed, which is not looked at here.
  | .escape => if c = newline then none else some { s.add c with mode := .plain }
  | .doubleEscape =>
    if c = newline then none
    else if c = quote ∨ c = backslash ∨ c ∈ expanding then some { s.add c with mode := .double }
    else some { (s.add backslash).add c with mode := .double }

/-- The states that a shell goes through as it reads a line. -/
def scan (s : State) (line : List UInt8) : Option State := line.foldlM step s

@[simp] theorem scan_nil (s : State) : s.scan [] = some s := rfl

theorem scan_cons (s : State) (c : UInt8) (line : List UInt8) :
    s.scan (c :: line) = (s.step c).bind fun t => t.scan line := List.foldlM_cons

theorem scan_append (s : State) (line line' : List UInt8) :
    s.scan (line ++ line') = (s.scan line).bind fun t => t.scan line' := List.foldlM_append

end State

/-- The words of a command line, unless something unquoted has a meaning of its own or a quote is
not closed. -/
def words (line : List UInt8) : Option (List Word) :=
  (State.scan {} line).bind fun s => if s.mode = .plain then some s.endWord.words else none

/-! ## Quoted words -/

/-- Inside single quotes, the text `a` adds the octets `b` to the word and ends inside single
quotes. -/
def Copies (a b : List UInt8) : Prop :=
  ∀ w ws, State.scan ⟨.single, some ⟨w, true⟩, ws⟩ a = some ⟨.single, some ⟨w ++ b, true⟩, ws⟩

theorem Copies.nil : Copies [] [] := fun w ws => by rw [List.append_nil]; rfl

theorem Copies.append {a a' b b' : List UInt8} (h : Copies a b) (h' : Copies a' b') :
    Copies (a ++ a') (b ++ b') := by
  intro w ws
  rw [State.scan_append, h, Option.bind_some, h', List.append_assoc]

/-- A text that is quoted octet by octet. -/
theorem Copies.flatMap {f : UInt8 → List UInt8} {l : List UInt8}
    (h : ∀ c ∈ l, Copies (f c) [c]) : Copies (l.flatMap f) l := by
  induction l with
  | nil => exact .nil
  | cons c l ih =>
    rw [List.flatMap_cons]
    exact (h c (List.mem_cons_self ..)).append (ih fun d hd => h d (List.mem_cons_of_mem _ hd))

/-- Only the apostrophe has a meaning inside single quotes. -/
theorem Copies.singleton {c : UInt8} (h : c ≠ apostrophe) : Copies [c] [c] := by
  intro w ws
  have hstep : State.step ⟨.single, some ⟨w, true⟩, ws⟩ c =
      some ⟨.single, some ⟨w ++ [c], true⟩, ws⟩ := if_neg h
  rw [State.scan_cons, hstep]
  rfl

/-- The text `a` stands for the word `w`, which has quotes. -/
def Spells (a w : List UInt8) : Prop :=
  ∀ ws, State.scan ⟨.plain, none, ws⟩ a = some ⟨.plain, some ⟨w, true⟩, ws⟩

/-- A text in single quotes. -/
theorem Copies.spells {a w : List UInt8} (h : Copies a w) :
    Spells (apostrophe :: (a ++ [apostrophe])) w := by
  intro ws
  have hopen : State.step ⟨.plain, none, ws⟩ apostrophe = some ⟨.single, some ⟨[], true⟩, ws⟩ := rfl
  rw [State.scan_cons, hopen, Option.bind_some, State.scan_append, h]
  rfl

/-- Texts that stand for words, with blanks between them, after other words. -/
theorem scan_intercalate {as ws : List (List UInt8)} (h : List.Forall₂ Spells as ws)
    (before : List Word) : ∃ s, State.scan ⟨.plain, none, before⟩ ([space].intercalate as) = some s ∧
      s.mode = .plain ∧ s.endWord.words = before ++ ws.map fun w => ⟨w, true⟩ := by
  induction h generalizing before with
  | nil => exact ⟨_, rfl, rfl, by simp [State.endWord]⟩
  | @cons a w as ws ha h ih =>
    cases h with
    | nil => exact ⟨_, (congrArg _ (by simp [List.intercalate])).trans (ha before), rfl, rfl⟩
    | @cons a' w' as ws ha' h =>
      obtain ⟨s, hs, hmode, hwords⟩ := ih (before ++ [⟨w, true⟩])
      refine ⟨s, ?_, hmode, hwords.trans (by simp)⟩
      rw [List.intercalate_cons_cons, List.append_assoc, State.scan_append, ha, Option.bind_some]
      exact hs

/-- **A command line of quoted words.** -/
theorem words_intercalate {as ws : List (List UInt8)} (h : List.Forall₂ Spells as ws) :
    words ([space].intercalate as) = some (ws.map fun w => ⟨w, true⟩) := by
  obtain ⟨s, hs, hmode, hwords⟩ := scan_intercalate h []
  unfold words
  rw [hs, Option.bind_some, if_pos hmode, hwords, List.nil_append]

/-! ## Percent expansion -/

/-- Two percent signs become one; another octet after a percent sign stands for its value. -/
def percentExpand (value : UInt8 → Option (List UInt8)) : List UInt8 → Option (List UInt8)
  | [] => some []
  | [c] => if c = percent then none else some [c]
  | c :: d :: rest =>
    if c = percent then
      if d = percent then
        (percentExpand value rest).map (percent :: ·)
      else
        (value d).bind fun v => (percentExpand value rest).map (v ++ ·)
    else
      (percentExpand value (d :: rest)).map (c :: ·)

/-- The text `a` is expanded to `b`, whatever follows. -/
def Expands (value : UInt8 → Option (List UInt8)) (a b : List UInt8) : Prop :=
  ∀ rest, percentExpand value (a ++ rest) = (percentExpand value rest).map (b ++ ·)

variable {value : UInt8 → Option (List UInt8)}

theorem Expands.nil : Expands value [] [] := fun rest => by simp

theorem Expands.append {a a' b b' : List UInt8} (h : Expands value a b)
    (h' : Expands value a' b') : Expands value (a ++ a') (b ++ b') := by
  intro rest
  rw [List.append_assoc, h, h', Option.map_map]
  congr 1
  funext l
  exact (List.append_assoc b b' l).symm

theorem Expands.flatMap {α : Type*} {f g : α → List UInt8} {l : List α}
    (h : ∀ c ∈ l, Expands value (f c) (g c)) : Expands value (l.flatMap f) (l.flatMap g) := by
  induction l with
  | nil => exact .nil
  | cons c l ih =>
    rw [List.flatMap_cons, List.flatMap_cons]
    exact (h c (List.mem_cons_self ..)).append (ih fun d hd => h d (List.mem_cons_of_mem _ hd))

/-- A text without percent signs. -/
theorem Expands.refl {a : List UInt8} (h : percent ∉ a) : Expands value a a := by
  induction a with
  | nil => exact .nil
  | cons c a ih =>
    rw [List.mem_cons, not_or] at h
    refine Expands.append (a := [c]) (b := [c]) (fun rest => ?_) (ih h.2)
    cases rest with
    | nil => simp [percentExpand, Ne.symm h.1]
    | cons d rest => simp [percentExpand, Ne.symm h.1]

theorem Expands.percent : Expands value [percent, percent] [percent] := by
  intro rest
  simp [percentExpand]

/-- Expanded texts with a text between them that stays as it is. -/
theorem Expands.intercalate {sep : List UInt8} {as bs : List (List UInt8)}
    (hsep : Expands value sep sep) (h : List.Forall₂ (Expands value) as bs) :
    Expands value (sep.intercalate as) (sep.intercalate bs) := by
  induction h with
  | nil => exact .nil
  | @cons a b as bs ha h ih =>
    cases h with
    | nil => simpa [List.intercalate] using ha
    | @cons a' b' as bs ha' h =>
      rw [List.intercalate_cons_cons, List.intercalate_cons_cons]
      exact (ha.append hsep).append ih

theorem Expands.eq {a b : List UInt8} (h : Expands value a b) : percentExpand value a = some b := by
  have hall := h []
  rw [List.append_nil] at hall
  rw [hall]
  simp [percentExpand]

end Shell
