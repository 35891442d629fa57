import Weaving.Proofs.Expression.Parsing
import Weaving.Proofs.Expression.ReturnType
import Weaving.Proofs.Text.Spacing

/-! The fields of execution patterns. A pattern that is written with a type, a method and parameters is read
as just these, whatever words stand before it and however they are spaced. -/
namespace Weaving.Expression

variable {s t name before params : List Char}

/-- A part of a name: it has neither blanks nor parentheses. -/
def Solid (s : List Char) : Prop := ∀ c ∈ s, Text.isBlank c = false ∧ c ≠ '(' ∧ c ≠ ')'

instance : Decidable (Solid s) := List.decidableBAll _ s

theorem Solid.open_not_mem (h : Solid s) : '(' ∉ s := fun hmem => (h _ hmem).2.1 rfl

theorem Solid.close_not_mem (h : Solid s) : ')' ∉ s := fun hmem => (h _ hmem).2.2 rfl

/-- What may stand before a pattern: words without parentheses, with blanks after each. -/
structure Preface (s : List Char) : Prop where
  open_not_mem : '(' ∉ s
  close_not_mem : ')' ∉ s
  blank_end : ∀ c ∈ s.getLast?, Text.isBlank c = true

instance : Decidable (Preface s) :=
  decidable_of_iff ('(' ∉ s ∧ ')' ∉ s ∧ s.getLast?.all Text.isBlank = true)
    ⟨fun h => ⟨h.1, h.2.1, (Option.all_eq_true _ _).mp h.2.2⟩,
      fun h => ⟨h.open_not_mem, h.close_not_mem, (Option.all_eq_true _ _).mpr h.blank_end⟩⟩

/-- What a list of parameter patterns stands for: two dots alone for any parameters. -/
def paramsOf (patterns : List String) : Option (List String) :=
  if patterns = [".."] then none else some patterns

/-- The parameter patterns in a text, each with one space between its words. -/
def paramsIn (s : List Char) : Option (List String) :=
  if Text.tidy s = ['.', '.'] then none
  else if Text.tidy s = [] then some []
  else some ((Text.split ',' s).map fun p => String.ofList (Text.tidy p))

theorem dropClosing_eq (s : List Char) : dropClosing s = s.rdropWhile (· = ')') := rfl

theorem dropClosing_of_not_mem (h : ')' ∉ s) : dropClosing s = s :=
  Text.rdropWhile_of_getLast? fun hlast => h (List.mem_of_getLast? hlast)

/-- Closing parentheses are dropped behind what does not end in one. -/
theorem dropClosing_append (h : s.getLast? ≠ some ')') (t : List Char) :
    dropClosing (s ++ t) = s ++ dropClosing t := by
  simp only [dropClosing_eq]
  induction t using List.reverseRecOn with
  | nil => simpa using Text.rdropWhile_of_getLast? h
  | append_singleton t c ih =>
    rw [← List.append_assoc]
    by_cases hc : c = ')'
    · rw [List.rdropWhile_concat_pos _ _ _ (by simpa using hc),
        List.rdropWhile_concat_pos _ _ _ (by simpa using hc), ih]
    · rw [List.rdropWhile_concat_neg _ _ _ (by simpa using hc),
        List.rdropWhile_concat_neg _ _ _ (by simpa using hc), List.append_assoc]

theorem readParams_blank (h : Blank s) (t : List Char) : readParams (s ++ t) = readParams t := by
  have hlast : s.getLast? ≠ some ')' := by
    intro hlast
    have hblank := h _ (List.mem_of_getLast? hlast)
    contradiction
  rw [readParams, dropClosing_append hlast, Text.trim_append_blank h, readParams]

/-- Reading parameters from a text with one space between its words comes to reading them from the text, each
with one space between its words. -/
theorem readParams_tidy (s : List Char) :
    readParams (Text.tidy (s ++ [')'])) = paramsIn (dropClosing s) := by
  have hdrop : Text.trim (dropClosing (Text.tidy (s ++ [')']))) = Text.tidy (dropClosing s) := by
    rw [dropClosing_eq, Text.trim_rdropWhile_tidy (by decide) (by simp; decide),
      List.rdropWhile_concat_pos _ _ _ (by decide), dropClosing_eq]
  have hpieces : (Text.split ',' (Text.tidy (dropClosing s))).map (fun p => String.ofList (Text.trim p)) =
      (Text.split ',' (dropClosing s)).map fun p => String.ofList (Text.tidy p) := by
    have hsplit := Text.split_tidy (by decide : Text.isBlank ',' = false) (dropClosing s)
    have h := congrArg (List.map String.ofList) hsplit
    simpa only [List.map_map, Function.comp_def] using h
  simp only [readParams, hdrop, hpieces, paramsIn, List.isEmpty_iff]

theorem Solid.opened (h : Solid name) : ∀ c ∈ name ++ ['('], Text.isBlank c = false := by
  intro c hc
  obtain hc | hc := List.mem_append.mp hc
  · exact (h c hc).1
  · obtain rfl := List.mem_singleton.mp hc
    decide

/-- Nothing is passed over before a word that opens a parenthesis. -/
theorem Solid.opening (h : Solid name) (t : List Char) :
    opening (name ++ '(' :: t) = Text.words (name ++ '(' :: t) := by
  obtain ⟨w, ws, hw⟩ := Text.words_append h.opened (by simp) t
  rw [List.append_assoc, List.singleton_append] at hw
  rw [Expression.opening, hw]
  simp

theorem Preface.opening (h : Preface before) (t : List Char) :
    opening (before ++ t) = Expression.opening t := by
  obtain rfl | ⟨s, b, rfl⟩ := List.eq_nil_or_concat' before
  · rfl
  · have hs : '(' ∉ s := fun hmem => h.open_not_mem (by simp [hmem])
    rw [List.append_assoc, List.singleton_append, opening_append (h.blank_end b (by simp)) hs]

/-- A pattern is read from its name on. -/
theorem ofExecutionChars_named (hbefore : Preface before) (hname : Solid name) (params : List Char) :
    ofExecutionChars (before ++ (name ++ '(' :: (params ++ [')']))) =
      ofName name (paramsIn (dropClosing params)) := by
  have htidy : Text.tidy (name ++ '(' :: (params ++ [')'])) =
      name ++ '(' :: (Text.gap (params ++ [')']) ++ Text.tidy (params ++ [')'])) := by
    simpa using Text.tidy_append hname.opened (by simp) (params ++ [')'])
  rw [ofExecutionChars_of_mem (by simp), hbefore.opening, hname.opening, ← Text.tidy, htidy,
    ofMethodPart, Text.cut_append hname.open_not_mem]
  dsimp only
  rw [readParams_blank Text.gap_blank, readParams_tidy]

theorem ofName_dotted {method : List Char} (h : '.' ∉ method) (type : List Char)
    (ps : Option (List String)) : ofName (type ++ '.' :: method) ps =
      execution ⟨String.ofList type⟩ (String.ofList method) ps := by
  simp [ofName, Text.cutLast_append h]

/-- A pattern with a type and a method is read as these and what its parameters are. -/
theorem ofExecution_methodText {before type method : String} (hbefore : Preface before.toList)
    (htype : Solid type.toList) (hmethod : Solid method.toList) (hdot : '.' ∉ method.toList)
    (params : String) : ofExecution (before ++ methodText type method params) =
      execution ⟨type⟩ method (paramsIn (dropClosing params.toList)) := by
  have hname : Solid (type.toList ++ '.' :: method.toList) := by
    intro c hc
    simp only [List.mem_append, List.mem_cons] at hc
    obtain hc | rfl | hc := hc
    · exact htype c hc
    · decide
    · exact hmethod c hc
  have htext : (before ++ methodText type method params).toList = before.toList ++
      (type.toList ++ '.' :: method.toList ++ '(' :: (params.toList ++ [')'])) := by
    simp [methodText]
  rw [ofExecution, htext, ofExecutionChars_named hbefore hname, ofName_dotted hdot]
  simp

theorem closing_append {depth : Nat} (hopen : '(' ∉ s) (hclose : ')' ∉ s) :
    Closing depth (s ++ t) ↔ Closing depth t := by
  induction s with
  | nil => rfl
  | cons c s ih =>
    obtain ⟨hc, hs⟩ := List.ne_and_not_mem_of_not_mem_cons hopen
    obtain ⟨hc', hs'⟩ := List.ne_and_not_mem_of_not_mem_cons hclose
    rw [List.cons_append, closing_cons hc'.symm, if_neg hc.symm, ih hs hs']

/-- The designator of execution patterns reads its body as such a pattern. -/
theorem parse_execution {s : String} (h : Balanced s.toList) :
    parse ("execution(" ++ s ++ ")") = .ok (ofExecution s) := by
  have hphrase : Phrase .unary ([] ++ ("execution".toList ++ ([] ++ '(' :: (s.toList ++ [')']))))
      (ofExecution (String.ofList s.toList)) :=
    .designator blank_nil (by decide) (List.all_eq_true.mp (by decide)) blank_nil h (.execution s.toList)
  have htext : ("execution(" ++ s ++ ")").toList =
      [] ++ ("execution".toList ++ ([] ++ '(' :: (s.toList ++ [')']))) ++ [] := by simp
  rw [String.ofList_toList] at hphrase
  have hdenotes : Denotes ("execution(" ++ s ++ ")").toList (ofExecution s) :=
    ⟨_, [], htext, .conjunction (.unary hphrase), blank_nil⟩
  exact parseChars_eq_ok.mpr (gives_readOr_iff_denotes.mpr hdenotes)

/-- A text with a word in it has as many parameter patterns as pieces. -/
theorem paramsIn_eq (h : Text.tidy s ≠ []) :
    paramsIn s = paramsOf ((Text.split ',' s).map fun p => String.ofList (Text.tidy p)) := by
  have hdots : Text.tidy s = ['.', '.'] ↔
      (Text.split ',' s).map (fun p => String.ofList (Text.tidy p)) = [".."] := by
    constructor
    · intro hs
      have hcomma : ',' ∉ s := by
        rw [← Text.mem_tidy (by decide), hs]
        decide
      simp [Text.split_of_not_mem hcomma, hs]
    · intro hs
      obtain ⟨p, hp, hdots⟩ := List.map_eq_singleton_iff.mp hs
      have hwhole : p = s := by simpa [hp] using Text.intercalate_split ',' s
      rw [← hwhole, ← String.ofList_inj, hdots]
  rw [paramsIn, if_neg h, paramsOf]
  simp only [hdots]

/-- Parameter patterns as they are written, each with the blanks before it. -/
def listed (params : List (String × String)) : String :=
  ",".intercalate (params.map fun q => q.1 ++ q.2)

/-- A parameter pattern that can be one of several: it has neither blanks nor parentheses nor commas. -/
structure Parameter (p : List Char) : Prop where
  nonempty : p ≠ []
  solid : Solid p
  comma_not_mem : ',' ∉ p

instance {p : List Char} : Decidable (Parameter p) :=
  decidable_of_iff (p ≠ [] ∧ Solid p ∧ ',' ∉ p) ⟨fun h => ⟨h.1, h.2.1, h.2.2⟩, fun h => ⟨h.1, h.2, h.3⟩⟩

theorem toList_listed (params : List (String × String)) : (listed params).toList =
    [','].intercalate (params.map fun q => q.1.toList ++ q.2.toList) := by
  simp [listed, Function.comp_def]

variable {params : List (String × String)}

/-- Parameter patterns are read from a list of them, however they are spaced. -/
theorem paramsIn_listed (hblank : ∀ q ∈ params, Blank q.1.toList)
    (hparams : ∀ q ∈ params, Parameter q.2.toList) :
    paramsIn (listed params).toList = paramsOf (params.map Prod.snd) := by
  rw [toList_listed]
  obtain rfl | hne := eq_or_ne params []
  · rfl
  have htidy : ∀ q ∈ params, Text.tidy (q.1.toList ++ q.2.toList) = q.2.toList := by
    intro q hq
    rw [Text.tidy_append_of_blank (hblank q hq)]
    exact Text.tidy_of_solid fun c hc => ((hparams q hq).solid c hc).1
  have hsplit : Text.split ',' ([','].intercalate (params.map fun q => q.1.toList ++ q.2.toList)) =
      params.map fun q => q.1.toList ++ q.2.toList := by
    refine Text.split_intercalate (by simpa using hne) fun s hs hcomma => ?_
    obtain ⟨q, hq, rfl⟩ := List.mem_map.mp hs
    obtain hcomma | hcomma := List.mem_append.mp hcomma
    · exact absurd (hblank q hq _ hcomma) (by decide)
    · exact (hparams q hq).comma_not_mem hcomma
  have hwords : Text.tidy ([','].intercalate (params.map fun q => q.1.toList ++ q.2.toList)) ≠ [] := by
    intro hnil
    obtain ⟨q, hq⟩ := List.exists_mem_of_ne_nil params hne
    have hpieces := Text.split_tidy (by decide : Text.isBlank ',' = false)
      ([','].intercalate (params.map fun q => q.1.toList ++ q.2.toList))
    rw [hnil, hsplit, List.map_map] at hpieces
    have hmem := List.mem_map_of_mem hq (f := Text.tidy ∘ fun q => q.1.toList ++ q.2.toList)
    rw [← hpieces, Function.comp_apply, htidy q hq] at hmem
    exact (hparams q hq).nonempty (List.mem_singleton.mp hmem)
  rw [paramsIn_eq hwords, hsplit, List.map_map]
  congr 1
  refine List.map_congr_left fun q hq => ?_
  simp [htidy q hq]

theorem parentheses_not_mem_listed (hblank : ∀ q ∈ params, Blank q.1.toList)
    (hparams : ∀ q ∈ params, Parameter q.2.toList) :
    '(' ∉ (listed params).toList ∧ ')' ∉ (listed params).toList := by
  have hplain : ∀ c ∈ (listed params).toList, c ≠ '(' ∧ c ≠ ')' := by
    intro c hc
    rw [toList_listed] at hc
    obtain hc | ⟨s, hs, hc⟩ := Text.mem_of_mem_intercalate hc
    · obtain rfl := List.mem_singleton.mp hc
      decide
    · obtain ⟨q, hq, rfl⟩ := List.mem_map.mp hs
      obtain hc | hc := List.mem_append.mp hc
      · have hb := hblank q hq c hc
        constructor <;> rintro rfl <;> contradiction
      · exact ((hparams q hq).solid c hc).2
  exact ⟨fun h => (hplain _ h).1 rfl, fun h => (hplain _ h).2 rfl⟩

/-- A pattern with parameters that have no parentheses has balanced parentheses. -/
theorem balanced_methodText {before type method params : String} (hbefore : Preface before.toList)
    (htype : Solid type.toList) (hmethod : Solid method.toList) (hopen : '(' ∉ params.toList)
    (hclose : ')' ∉ params.toList) : Balanced (before ++ methodText type method params).toList := by
  have htext : (before ++ methodText type method params).toList =
      before.toList ++ (type.toList ++ (['.'] ++ (method.toList ++ '(' :: (params.toList ++ [')'])))) := by
    simp [methodText]
  rw [htext, Balanced, closing_append hbefore.open_not_mem hbefore.close_not_mem,
    closing_append htype.open_not_mem htype.close_not_mem, closing_append (by decide) (by decide),
    closing_append hmethod.open_not_mem hmethod.close_not_mem, closing_cons (by decide), if_pos rfl,
    closing_append hopen hclose]
  exact closing_cons_close.mpr ⟨0, rfl, closing_nil.mpr rfl⟩

/-- A pattern is read as the type, the method and the parameters that it is written with, whatever words stand
before it and whatever blanks before the parameters; and so is the same pattern as a designator. -/
theorem execution_decodes {before type method : String} (hbefore : Preface before.toList)
    (htype : Solid type.toList) (hmethod : Solid method.toList) (hdot : '.' ∉ method.toList)
    (hblank : ∀ q ∈ params, Blank q.1.toList) (hparams : ∀ q ∈ params, Parameter q.2.toList) :
    ofExecution (before ++ methodText type method (listed params)) =
        execution ⟨type⟩ method (paramsOf (params.map Prod.snd)) ∧
      parse ("execution(" ++ (before ++ methodText type method (listed params)) ++ ")") =
        .ok (execution ⟨type⟩ method (paramsOf (params.map Prod.snd))) := by
  obtain ⟨hopen, hclose⟩ := parentheses_not_mem_listed hblank hparams
  have hdecoded : ofExecution (before ++ methodText type method (listed params)) =
      execution ⟨type⟩ method (paramsOf (params.map Prod.snd)) := by
    rw [ofExecution_methodText hbefore htype hmethod hdot, dropClosing_of_not_mem hclose,
      paramsIn_listed hblank hparams]
  refine ⟨hdecoded, ?_⟩
  rw [parse_execution (balanced_methodText hbefore htype hmethod hopen hclose), hdecoded]

theorem placing_decodes :
    ofExecution ("public\t Result<Order>  " ++
        methodText "shop.Orders" "place*" (listed [("", "Cart"), (" \t ", ".."), ("", "Address")])) =
      execution ⟨"shop.Orders"⟩ "place*" (some ["Cart", "..", "Address"]) ∧
    parse ("execution(" ++ ("public\t Result<Order>  " ++
        methodText "shop.Orders" "place*" (listed [("", "Cart"), (" \t ", ".."), ("", "Address")])) ++
        ")") =
      .ok (execution ⟨"shop.Orders"⟩ "place*" (some ["Cart", "..", "Address"])) :=
  execution_decodes (by decide) (by decide) (by decide) (by decide) (by decide) (by decide)

end Weaving.Expression
