import ConditionalAssignment.Proofs.Grammar.Relocation
import ConditionalAssignment.Proofs.Source.Streaming
import Mathlib

/-!
# Reading does not depend on layout

Tokens at other places are read as the same program or fail for the same reason.
Two texts with the same words may place them differently in ways that no single
change of places relates, since two tokens at one place may be moved apart.  So
both are compared with the tokens that stand at their own indices: those have
places of their own, and each of the two texts relocates them.
-/

namespace ConditionalAssignment

/-- Tokens are read alike at other places. -/
theorem Program.ofTokens_relocate
    (change : Position → Position)
    (tokens : List Token) :
    Program.ofTokens (tokens.map (Token.relocate change)) =
      (Program.ofTokens tokens).mapError (ParseError.relocate change) := by
  rw [ofTokens_eq, ofTokens_eq, Statement.readRange_relocate, mapError_map]

/-! ## Numbered tokens -/

/-- The place that stands for an index. -/
def Position.ofIndex (index : Nat) : Position :=
  ⟨index, 0, 0⟩

/-- The tokens of given words whose places are their indices. -/
def Token.numbered (words : List Word) : List Token :=
  words.mapIdx fun index word => ⟨word.kind, word.text, .ofIndex index⟩

/-- The place of the token whose index a place stands for. -/
def Token.placeIn (tokens : List Token) (place : Position) : Position :=
  (tokens[place.offset]?.map Token.position).getD place

namespace Token

theorem placeIn_ofIndex
    {tokens : List Token}
    {index : Nat}
    {token : Token}
    (found : tokens[index]? = some token) :
    placeIn tokens (.ofIndex index) = token.position := by
  unfold placeIn Position.ofIndex
  rw [found]
  rfl

/-- Tokens are the numbered tokens of their words at their places. -/
theorem map_relocate_numbered (tokens : List Token) :
    (numbered (tokens.map word)).map (relocate (placeIn tokens)) = tokens := by
  apply List.ext_getElem?
  intro index
  cases found : tokens[index]? with
  | none => simp [numbered, found]
  | some token =>
      have place_eq := placeIn_ofIndex found
      simp [numbered, found, relocate, place_eq]

/-- A numbered token stands at its index, so do the tokens of its words. -/
theorem exists_of_mem_numbered
    {tokens : List Token}
    {token : Token}
    (member : token ∈ numbered (tokens.map word)) :
    ∃ index, token.position = .ofIndex index ∧ index < tokens.length := by
  obtain ⟨index, inRange, rfl⟩ := List.mem_mapIdx.mp member
  rw [List.length_map] at inRange
  exact ⟨index, rfl, inRange⟩

end Token

namespace Program

/-- Tokens are read as their numbered tokens are. -/
theorem ofTokens_eq_numbered (tokens : List Token) :
    ofTokens tokens =
      (ofTokens (Token.numbered (tokens.map Token.word))).mapError
        (ParseError.relocate (Token.placeIn tokens)) := by
  rw [← ofTokens_relocate, Token.map_relocate_numbered]

/-- Lists of the same words are read as the same program, or both fail for the
same reason at tokens with the same index. -/
theorem ofTokens_of_words_eq
    {first second : List Token}
    (words_eq : first.map Token.word = second.map Token.word) :
    (∃ program,
        ofTokens first = .ok program ∧ ofTokens second = .ok program) ∨
      ∃ fault, ∃ index : Nat, ∃ firstToken secondToken,
        first[index]? = some firstToken ∧ second[index]? = some secondToken ∧
          ofTokens first = .error (.blame firstToken fault) ∧
            ofTokens second = .error (.blame secondToken fault) := by
  have first_eq := ofTokens_eq_numbered first
  have second_eq := ofTokens_eq_numbered second
  rw [← words_eq] at second_eq
  have blames := ofTokens_blames (Token.numbered (first.map Token.word))
  cases read : ofTokens (Token.numbered (first.map Token.word)) with
  | ok program =>
      rw [read] at first_eq second_eq
      exact Or.inl ⟨program, first_eq, second_eq⟩
  | error error =>
      rw [read] at first_eq second_eq
      obtain ⟨token, member, position_eq, _⟩ := blames error read
      obtain ⟨index, place_eq, inFirst⟩ := Token.exists_of_mem_numbered member
      have length_eq := congrArg List.length words_eq
      rw [List.length_map, List.length_map] at length_eq
      have inSecond : index < second.length := length_eq ▸ inFirst
      have firstFound := List.getElem?_eq_getElem inFirst
      have secondFound := List.getElem?_eq_getElem inSecond
      refine Or.inr
        ⟨error.fault, index, _, _, firstFound, secondFound, ?_, ?_⟩
      · rw [first_eq, ParseError.blame, ← Token.placeIn_ofIndex firstFound,
          ← place_eq]
        simp [Except.mapError, ParseError.relocate, position_eq]
      · rw [second_eq, ParseError.blame, ← Token.placeIn_ofIndex secondFound,
          ← place_eq]
        simp [Except.mapError, ParseError.relocate, position_eq]

/-- Readers of tokens take places along and never look at them, so two texts
with the same words are read as the same program or fail for the same reason at
the same token. -/
theorem reading_ignores_places :
    (∀ change tokens,
        ofTokens (tokens.map (Token.relocate change)) =
          (ofTokens tokens).mapError (ParseError.relocate change)) ∧
      ∀ first second firstTokens secondTokens,
        Balance.check first = .ok () →
          Balance.check second = .ok () →
            Token.ofSource first = .ok firstTokens →
              Token.ofSource second = .ok secondTokens →
                firstTokens.map Token.word = secondTokens.map Token.word →
                  (∃ program,
                      ofSource first = .ok program ∧
                        ofSource second = .ok program) ∨
                    ∃ fault, ∃ index : Nat, ∃ firstToken secondToken,
                      firstTokens[index]? = some firstToken ∧
                        secondTokens[index]? = some secondToken ∧
                          ofSource first =
                              .error (.grammar (.blame firstToken fault)) ∧
                            ofSource second =
                              .error (.grammar (.blame secondToken fault)) := by
  refine ⟨ofTokens_relocate, ?_⟩
  intro first second firstTokens secondTokens firstPassed secondPassed
    firstLexed secondLexed words_eq
  rcases ofTokens_of_words_eq words_eq with
    ⟨program, firstRead, secondRead⟩ |
    ⟨fault, index, firstToken, secondToken, firstFound, secondFound,
      firstFailed, secondFailed⟩
  · refine Or.inl ⟨program, ?_, ?_⟩
    · exact ofSource_eq_ok_iff.mpr ⟨firstTokens, firstLexed, firstRead⟩
    · exact ofSource_eq_ok_iff.mpr ⟨secondTokens, secondLexed, secondRead⟩
  · refine Or.inr
      ⟨fault, index, firstToken, secondToken, firstFound, secondFound, ?_, ?_⟩
    · exact ofSource_eq_grammar_iff.mpr
        ⟨firstPassed, firstTokens, firstLexed, firstFailed⟩
    · exact ofSource_eq_grammar_iff.mpr
        ⟨secondPassed, secondTokens, secondLexed, secondFailed⟩

/-- A text that is read in two layouts, and one that fails in two layouts. -/
theorem reading_ignores_places_layouts :
    (∃ program,
        ofSource "x:=1;" = .ok program ∧
          ofSource "\nx :=\t1 ;" = .ok program) ∧
      ofSource "x:=(a)b;" =
          .error (.grammar ⟨.expectedOperator "b", some ⟨6, 1, 7⟩⟩) ∧
        ∃ place,
          ofSource "x := (a)\nb;" =
            .error (.grammar ⟨.expectedOperator "b", some place⟩) := by
  have firstFailed :
      ofSource "x:=(a)b;" =
        .error (.grammar ⟨.expectedOperator "b", some ⟨6, 1, 7⟩⟩) := by
    cbv
  refine ⟨?_, firstFailed, ?_⟩
  · have firstRead :
        ofSource "x:=1;" =
          .ok ⟨[.assignment "x" [.operand (.constant "1")]]⟩ := by
      cbv
    rcases reading_ignores_places.2 "x:=1;" "\nx :=\t1 ;" _ _ (by cbv)
        (by cbv) (by cbv) (by cbv) (by cbv) with
      bothRead | ⟨_, _, _, _, _, _, firstFails, _⟩
    · exact bothRead
    · rw [firstRead] at firstFails
      cases firstFails
  · rcases reading_ignores_places.2 "x:=(a)b;" "x := (a)\nb;" _ _ (by cbv)
        (by cbv) (by cbv) (by cbv) (by cbv) with
      ⟨_, firstRead, _⟩ | ⟨_, _, _, _, _, _, firstFails, secondFails⟩
    · rw [firstFailed] at firstRead
      cases firstRead
    · rw [firstFailed] at firstFails
      simp only [Except.error.injEq, SourceError.grammar.injEq,
        ParseError.blame, ParseError.mk.injEq] at firstFails
      obtain ⟨rfl, _⟩ := firstFails
      exact ⟨_, secondFails⟩

end Program

end ConditionalAssignment
