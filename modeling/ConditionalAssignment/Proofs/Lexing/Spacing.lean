import ConditionalAssignment.Proofs.Lexing.Spelling
import Mathlib

/-!
# Words written with blanks of any kind

Any list of valid words can be written as a text, with blanks of any kind and
number before, between and behind the words.  Two neighbours need a blank only
if both are runs, that is names, numbers or reserved words.  All other words
start with a symbol, which ends whatever stands before it, and take nothing from
what follows.  The main result is that the text then gives back these words.
-/

namespace ConditionalAssignment

namespace Word

/-- The word is a run that a run directly behind it would lengthen. -/
def isRun (word : Word) : Bool :=
  match word.kind with
  | .identifier | .constant | .keyword _ => true
  | _ => false

/-- Only runs can be clung to. -/
theorem stops_clings_of_not_isRun
    {word : Word}
    (notRun : word.isRun = false)
    (rest : List Char) :
    Stops word.clings rest := by
  intro character _
  unfold isRun at notRun
  unfold clings
  split at notRun <;> simp_all

/-- A word that is no run starts with a symbol, which clings to nothing. -/
theorem IsValid.stops_append_of_not_isRun
    {word : Word}
    (isValid : word.IsValid)
    (notRun : word.isRun = false)
    (rest : List Char) :
    Stops Numeral.clings (word.text.toList ++ rest) := by
  obtain ⟨kind, text⟩ := word
  cases kind with
  | identifier => cases notRun
  | constant => cases notRun
  | keyword keyword => cases notRun
  | assignment =>
      obtain rfl : text = ":=" := isValid
      exact Stops.cons (by decide) _
  | comparison =>
      obtain ⟨operator, rfl⟩ := isValid
      cases operator <;> exact Stops.cons (by decide) _
  | arithmetic =>
      obtain ⟨operator, rfl⟩ := isValid
      cases operator <;> exact Stops.cons (by decide) _
  | delimiter =>
      obtain rfl : text = ";" := isValid
      exact Stops.cons (by decide) _
  | openBracket =>
      obtain ⟨bracket, rfl⟩ := isValid
      cases bracket <;> exact Stops.cons (by decide) _
  | closeBracket =>
      obtain ⟨bracket, rfl⟩ := isValid
      cases bracket <;> exact Stops.cons (by decide) _

end Word

/-! ## Words and the blanks behind them -/

/-- A word and the blanks behind it. -/
structure SpacedWord where
  /-- The word. -/
  word : Word
  /-- The blanks between the word and the next one, or the end. -/
  blank : List Char

namespace SpacedWord

/-- The text of the word and the blanks behind it. -/
def text (spaced : SpacedWord) : List Char :=
  spaced.word.text.toList ++ spaced.blank

/-- The word is valid, and nothing but blanks is behind it. -/
def IsValid (spaced : SpacedWord) : Prop :=
  spaced.word.IsValid ∧ IsBlank spaced.blank

/-- Two neighbours that are both runs have a blank between them. -/
def IsApart (first second : SpacedWord) : Prop :=
  first.word.isRun = true → second.word.isRun = true → first.blank ≠ []

/-- What is behind a word does not cling to it. -/
theorem stops_clings
    {first : SpacedWord}
    {others : List SpacedWord}
    (valid : ∀ spaced ∈ first :: others, spaced.IsValid)
    (apart : (first :: others).IsChain IsApart) :
    Stops first.word.clings (first.blank ++ others.flatMap text) := by
  rw [List.forall_mem_cons] at valid
  obtain ⟨⟨_, isBlank⟩, othersValid⟩ := valid
  cases isRun : first.word.isRun with
  | false => exact Word.stops_clings_of_not_isRun isRun _
  | true =>
      refine Stops.mono ?_ fun _ => Word.numeral_clings_of_clings
      cases blank_eq : first.blank with
      | cons character blanks =>
          have characterBlank := isBlank character (by simp [blank_eq])
          exact Stops.cons (numeral_clings_of_isBlank characterBlank) _
      | nil =>
          cases others with
          | nil => exact Stops.nil _
          | cons second others =>
              have secondApart := (List.isChain_cons_cons.mp apart).1
              have secondNotRun : second.word.isRun = false := by
                rw [Bool.eq_false_iff]
                intro secondRun
                exact secondApart isRun secondRun blank_eq
              rw [List.forall_mem_cons] at othersValid
              rw [List.nil_append, List.flatMap_cons, text, List.append_assoc]
              exact othersValid.1.1.stops_append_of_not_isRun secondNotRun _

/-- Words with blanks behind them spell these words. -/
theorem spells_flatMap_text
    {items : List SpacedWord}
    (valid : ∀ spaced ∈ items, spaced.IsValid)
    (apart : items.IsChain IsApart) :
    Spells (items.flatMap text) (items.map word) := by
  induction items with
  | nil => exact Spells.nil
  | cons first others inductionHypothesis =>
      have stops := stops_clings valid apart
      rw [List.forall_mem_cons] at valid
      have othersSpell := inductionHypothesis valid.2 apart.tail
      rw [List.flatMap_cons, text, List.append_assoc, List.map_cons]
      exact Spells.cons valid.1.1 stops (othersSpell.prepend_blank valid.1.2)

end SpacedWord

/-- A text of valid words, with blanks before, between and behind them and
between any two runs at least one, gives exactly these words. -/
theorem Token.ofSource_of_spacedWords
    {leading : List Char}
    {items : List SpacedWord}
    (leadingBlank : IsBlank leading)
    (valid : ∀ spaced ∈ items, spaced.IsValid)
    (apart : items.IsChain SpacedWord.IsApart) :
    ∃ tokens,
      Token.ofSource
          (String.ofList (leading ++ items.flatMap SpacedWord.text)) =
        .ok tokens ∧
          tokens.map Token.word = items.map SpacedWord.word := by
  apply Token.ofSource_of_spells
  rw [String.toList_ofList]
  exact (SpacedWord.spells_flatMap_text valid apart).prepend_blank leadingBlank

/-- Nothing runs together in a text with one blank between two runs only. -/
theorem Token.ofSource_of_spacedWords_touching :
    ∃ tokens,
      Token.ofSource "\ta:==1e5)+2 then\n" = .ok tokens ∧
        tokens.map Token.word =
          [⟨.identifier, "a"⟩, .assignment, ⟨.comparison, "="⟩,
            ⟨.constant, "1e5"⟩, .closing .round, ⟨.arithmetic, "+"⟩,
            ⟨.constant, "2"⟩, .ofKeyword .thenWord] := by
  let items : List SpacedWord :=
    [⟨⟨.identifier, "a"⟩, []⟩, ⟨.assignment, []⟩, ⟨⟨.comparison, "="⟩, []⟩,
      ⟨⟨.constant, "1e5"⟩, []⟩, ⟨.closing .round, []⟩, ⟨⟨.arithmetic, "+"⟩, []⟩,
      ⟨⟨.constant, "2"⟩, [' ']⟩, ⟨.ofKeyword .thenWord, ['\n']⟩]
  have leadingBlank : IsBlank ['\t'] := List.forall_mem_singleton.mpr rfl
  have isName : IsName "a" := .of_toList_eq_singleton rfl rfl
  have exponential : IsNumber "1e5" :=
    ⟨['1'], [], ['e', '5'], ⟨by simp, List.forall_mem_singleton.mpr rfl⟩,
      Or.inl rfl,
      Or.inr ⟨'e', [], ['5'], Or.inl rfl, Or.inl rfl,
        ⟨by simp, List.forall_mem_singleton.mpr rfl⟩, rfl⟩,
      rfl⟩
  have whole : IsNumber "2" :=
    ⟨['2'], [], [], ⟨by simp, List.forall_mem_singleton.mpr rfl⟩, Or.inl rfl,
      Or.inl rfl, rfl⟩
  have valid : ∀ spaced ∈ items, spaced.IsValid := by
    simp only [items, List.forall_mem_cons]
    exact
      ⟨⟨isName, .nil⟩, ⟨rfl, .nil⟩, ⟨⟨.equal, rfl⟩, .nil⟩, ⟨exponential, .nil⟩,
        ⟨⟨.round, rfl⟩, .nil⟩, ⟨⟨.add, rfl⟩, .nil⟩, ⟨whole, .space⟩,
        ⟨rfl, List.forall_mem_singleton.mpr rfl⟩, List.forall_mem_nil _⟩
  have apart : items.IsChain SpacedWord.IsApart := by
    simp [items, SpacedWord.IsApart, Word.isRun, Word.assignment,
      Word.closing, Word.ofKeyword]
  exact ofSource_of_spacedWords leadingBlank valid apart

end ConditionalAssignment
