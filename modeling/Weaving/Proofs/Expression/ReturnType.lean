import Weaving.Expression.Execution
import Weaving.Proofs.Text.Words

/-! Return types in execution patterns. Reading a pattern goes on from the first word that opens a
parenthesis, and the first parenthesis there divides the name from the parameters, which keep all the
others. So modifiers and a return type decide nothing as long as they open no parenthesis; the parenthesis
of a unit or a tuple is taken for that of the method. -/
namespace Weaving.Expression

variable {s t : List Char}

/-- The parameter patterns of an execution pattern, if it has any. -/
def params? : Expression → Option (List String)
  | execution _ _ ps => ps
  | _ => none

@[simp] theorem params?_ofName (name : List Char) (ps : Option (List String)) :
    (ofName name ps).params? = ps := by
  unfold ofName
  split
  · rfl
  · cases ps <;> rfl

/-- How many parentheses parameter patterns open. -/
def openings (ps : Option (List String)) : Nat := ((ps.getD []).flatMap String.toList).count '('

/-- No parenthesis that is opened among the parameters is lost. -/
theorem openings_readParams (s : List Char) : openings (readParams s) = s.count '(' := by
  have hinner : (Text.trim (dropClosing s)).count '(' = s.count '(' := by
    rw [Text.count_trim (by decide), dropClosing, List.count_reverse, Text.count_dropWhile (by decide),
      List.count_reverse]
  rw [← hinner]
  unfold readParams
  generalize Text.trim (dropClosing s) = inner
  by_cases hany : inner = ['.', '.']
  · simp [hany, openings]
  · by_cases hempty : inner = []
    · simp [hempty, openings]
    · have hpiece : ∀ p : List Char, (Text.trim p).count '(' = p.count '(' :=
        fun p => Text.count_trim (by decide) p
      rw [← Text.count_split (by decide : '(' ≠ ',') inner, List.count_flatten]
      simp [hany, hempty, openings, List.flatMap_map, List.count_flatMap, Function.comp_def, hpiece]

theorem openings_ofMethodPart (s : List Char) : openings (ofMethodPart s).params? = s.count '(' - 1 := by
  unfold ofMethodPart
  cases h : Text.cut '(' s with
  | none =>
    have hnone := Text.not_mem_of_cut_none h
    simp [openings, List.count_eq_zero.mpr hnone]
  | some p =>
    obtain ⟨name, rest⟩ := p
    have hname := Text.not_mem_of_cut h
    obtain rfl := Text.eq_append_of_cut h
    simp [openings_readParams, List.count_eq_zero.mpr hname]

/-- The words of a text from the first that opens a parenthesis. -/
def opening (s : List Char) : List (List Char) := (Text.words s).dropWhile fun w => !w.contains '('

/-- The words that are passed over open no parenthesis. -/
theorem count_opening (s : List Char) : (opening s).flatten.count '(' = s.count '(' := by
  rw [← Text.count_words (by decide) s, opening]
  induction Text.words s with
  | nil => rfl
  | cons w ws ih =>
    by_cases hw : '(' ∈ w
    · simp [hw]
    · simpa [hw, List.count_eq_zero.mpr hw] using ih

/-- A text that opens a parenthesis is read from the word that does so first. -/
theorem ofExecutionChars_of_mem (h : '(' ∈ s) :
    ofExecutionChars s = ofMethodPart ([' '].intercalate (opening s)) := by
  have hne : opening s ≠ [] := by
    intro hnil
    have hcount := count_opening s
    rw [hnil] at hcount
    exact List.count_eq_zero.mp hcount.symm h
  obtain ⟨w, ws, hws⟩ := List.exists_cons_of_ne_nil hne
  have hpart : methodPart (Text.words s) = some ([' '].intercalate (opening s)) := by
    rw [methodPart, ← opening, hws]
  simp [ofExecutionChars, hpart]

/-- Of the parentheses that are opened the first one ends the name, and the others are in the
parameters. -/
theorem openings_ofExecutionChars (h : '(' ∈ s) :
    openings (ofExecutionChars s).params? = s.count '(' - 1 := by
  rw [ofExecutionChars_of_mem h, openings_ofMethodPart, Text.count_intercalate (by decide),
    count_opening]

theorem opening_append {b : Char} (hb : Text.isBlank b = true) (hs : '(' ∉ s) (t : List Char) :
    opening (s ++ b :: t) = opening t := by
  have hwords : ∀ w ∈ Text.words s, (!w.contains '(') = true := by
    intro w hw
    have hmem : '(' ∉ (Text.words s).flatten := by
      rw [Text.flatten_words]
      exact fun h => hs (List.mem_filter.mp h).1
    simpa using fun h => hmem (List.mem_flatten.mpr ⟨w, hw, h⟩)
  rw [opening, Text.words_append_blank hb, List.dropWhile_append_of_pos hwords, opening]

/-- The text of a method with its type and parameters, as an execution pattern ends in it. -/
def methodText (type method params : String) : String :=
  type ++ "." ++ method ++ "(" ++ params ++ ")"

theorem mem_methodText (type method params : String) :
    '(' ∈ (methodText type method params).toList := by
  simp [methodText]

/-- What stands before the method decides nothing if and only if it opens no parenthesis. -/
theorem returns_ignored_iff (returns type method params : String) :
    ofExecution (returns ++ " " ++ methodText type method params) =
        ofExecution (methodText type method params) ↔ '(' ∉ returns.toList := by
  have hpart := mem_methodText type method params
  have htext : (returns ++ " " ++ methodText type method params).toList =
      returns.toList ++ ' ' :: (methodText type method params).toList := by simp
  rw [ofExecution, ofExecution, htext]
  constructor
  · intro h
    have hcount := congrArg (openings ∘ params?) h
    rw [Function.comp_apply, Function.comp_apply, openings_ofExecutionChars (by simp [hpart]),
      openings_ofExecutionChars hpart, List.count_append, List.count_cons_of_ne (by decide)] at hcount
    have hpos := List.count_pos_iff.mpr hpart
    exact List.count_eq_zero.mp (by omega)
  · intro h
    rw [ofExecutionChars_of_mem (by simp [hpart]), ofExecutionChars_of_mem hpart, opening_append (by decide) h]

/-- A method that returns nothing is not recognised by its name. -/
theorem unit_mistaken :
    ofExecution ("()" ++ " " ++ methodText "UserService" "save" "..") =
      execution ⟨"*"⟩ "" (some [") UserService.save(.."]) ∧
    ofExecution (methodText "UserService" "save" "..") = execution ⟨"UserService"⟩ "save" none ∧
    ofExecution ("()" ++ " " ++ methodText "UserService" "save" "..") ≠
      ofExecution (methodText "UserService" "save" "..") := by
  have hmistaken : ofExecution ("()" ++ " " ++ methodText "UserService" "save" "..") =
      execution ⟨"*"⟩ "" (some [") UserService.save(.."]) := rfl
  have hmeant : ofExecution (methodText "UserService" "save" "..") =
      execution ⟨"UserService"⟩ "save" none := rfl
  refine ⟨hmistaken, hmeant, ?_⟩
  rw [hmistaken, hmeant]
  simp

end Weaving.Expression
