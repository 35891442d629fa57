import Weaving.Proofs.Expression.Fields
import Weaving.Proofs.Expression.Parameters
import Weaving.Proofs.Text.Wildcards

/-! Patterns written from a method. The parameters are cut at every comma and lose all parentheses at their
end, so that a type with several arguments and a tuple are not read as they were written. For all other
types the pattern accepts the method. -/
namespace Weaving.Expression

variable {s t : List Char} {ss : List (List Char)}

/-- The execution pattern of a method, with any return type. -/
def written (m : Method) : String :=
  "* " ++ methodText m.declaring m.name (", ".intercalate m.params)

/-- A text with one space between its words and without two dots as a piece between commas. -/
structure Neat (s : List Char) : Prop where
  tidy : Text.tidy s = s
  dotless : ∀ p ∈ Text.split ',' s, Text.tidy p ≠ ['.', '.']

instance : Decidable (Neat s) :=
  decidable_of_iff (Text.tidy s = s ∧ ∀ p ∈ Text.split ',' s, Text.tidy p ≠ ['.', '.'])
    ⟨fun h => ⟨h.1, h.2⟩, fun h => ⟨h.tidy, h.dotless⟩⟩

/-- A type name: neat with and without the parentheses that close it, and not only these. -/
structure TypeName (s : List Char) : Prop where
  nonempty : dropClosing s ≠ []
  neat : Neat s
  neat_open : Neat (dropClosing s)

instance : Decidable (TypeName s) :=
  decidable_of_iff (dropClosing s ≠ [] ∧ Neat s ∧ Neat (dropClosing s))
    ⟨fun h => ⟨h.1, h.2.1, h.2.2⟩, fun h => ⟨h.nonempty, h.neat, h.neat_open⟩⟩

/-- The pieces of a text, each with one space between its words. -/
def pieces (s : List Char) : List (List Char) := (Text.split ',' s).map Text.tidy

theorem pieces_of_not_mem (h : ',' ∉ s) : pieces s = [Text.tidy s] := by
  simp [pieces, Text.split_of_not_mem h]

theorem pieces_append (s t : List Char) : pieces (s ++ [',', ' '] ++ t) = pieces s ++ pieces t := by
  obtain ⟨p, ps, hp⟩ := List.exists_cons_of_ne_nil (Text.split_ne_nil ',' t)
  have hbehind : Text.split ',' (' ' :: t) = (' ' :: p) :: ps := Text.split_append (s := [' ']) (by decide) hp
  have htext : s ++ [',', ' '] ++ t = s ++ ',' :: ' ' :: t := by simp
  rw [htext, pieces, Text.split_append_sep, hbehind, pieces, pieces, hp]
  simp [Text.tidy_blank (c := ' ') (by decide)]

theorem pieces_intercalate (hne : ss ≠ []) : pieces ([',', ' '].intercalate ss) = ss.flatMap pieces := by
  induction ss with
  | nil => contradiction
  | cons s ss ih =>
    cases ss with
    | nil => simp
    | cons r ss =>
      rw [List.intercalate_cons_cons, pieces_append, ih (by simp)]
      rfl

/-- Only the last of several texts loses closing parentheses. -/
theorem dropClosing_intercalate (ss : List (List Char)) (s : List Char) :
    dropClosing ([',', ' '].intercalate (ss ++ [s])) = [',', ' '].intercalate (ss ++ [dropClosing s]) := by
  obtain rfl | hne := eq_or_ne ss []
  · simp
  · rw [Text.intercalate_append hne (by simp), Text.intercalate_append hne (by simp),
      dropClosing_append (by simp)]
    simp

theorem length_pieces (s : List Char) : (pieces s).length = s.count ',' + 1 := by
  simp [pieces, Text.length_split]

theorem length_le_flatMap_pieces (ss : List (List Char)) : ss.length ≤ (ss.flatMap pieces).length := by
  induction ss with
  | nil => simp
  | cons s ss ih =>
    rw [List.flatMap_cons, List.length_append, length_pieces, List.length_cons]
    omega

/-- Texts that have no more pieces than there are texts have no commas. -/
theorem comma_not_mem_of_length (h : (ss.flatMap pieces).length ≤ ss.length) :
    ∀ s ∈ ss, ',' ∉ s := by
  induction ss with
  | nil => simp
  | cons s ss ih =>
    have hmore := length_le_flatMap_pieces ss
    rw [List.flatMap_cons, List.length_append, length_pieces, List.length_cons] at h
    have hs : ',' ∉ s := List.count_eq_zero.mp (by omega)
    intro t ht
    obtain rfl | ht := List.mem_cons.mp ht
    · exact hs
    · exact ih (by omega) t ht

theorem flatMap_pieces (hneat : ∀ s ∈ ss, Neat s) (hcomma : ∀ s ∈ ss, ',' ∉ s) :
    ss.flatMap pieces = ss := by
  induction ss with
  | nil => rfl
  | cons s ss ih =>
    rw [List.flatMap_cons, pieces_of_not_mem (hcomma s (by simp)), (hneat s (by simp)).tidy,
      ih (fun t ht => hneat t (List.mem_cons_of_mem _ ht)) fun t ht => hcomma t (List.mem_cons_of_mem _ ht)]
    rfl

theorem dots_not_mem_pieces (hneat : ∀ s ∈ ss, Neat s) :
    ".." ∉ (ss.flatMap pieces).map String.ofList := by
  intro hdots
  obtain ⟨p, hp, hdots⟩ := List.mem_map.mp hdots
  obtain ⟨s, hs, hp⟩ := List.mem_flatMap.mp hp
  obtain ⟨q, hq, rfl⟩ := List.mem_map.mp hp
  exact (hneat s hs).dotless q hq (by rw [← String.toList_ofList (l := Text.tidy q), hdots]; rfl)

/-- The parameter patterns that are read from neat texts. -/
theorem paramsIn_intercalate (hneat : ∀ s ∈ ss, Neat s) (hs : s ∈ ss) (hne : s ≠ []) :
    paramsIn ([',', ' '].intercalate ss) = some ((ss.flatMap pieces).map String.ofList) := by
  have hwords : Text.tidy ([',', ' '].intercalate ss) ≠ [] := by
    obtain ⟨c, t, rfl⟩ := List.exists_cons_of_ne_nil hne
    have hc : Text.isBlank c = false := Text.head?_tidy (c :: t) c (by rw [(hneat _ hs).tidy]; rfl)
    have hmem := Text.mem_intercalate_of_mem hs (List.mem_cons_self ..) [',', ' ']
    exact List.ne_nil_of_mem ((Text.mem_tidy hc).mpr hmem)
  have hpieces : (Text.split ',' ([',', ' '].intercalate ss)).map (fun p => String.ofList (Text.tidy p)) =
      (ss.flatMap pieces).map String.ofList := by
    rw [← pieces_intercalate (List.ne_nil_of_mem hs), pieces, List.map_map]
    rfl
  rw [paramsIn_eq hwords, hpieces, paramsOf, if_neg]
  intro hdots
  exact dots_not_mem_pieces hneat (by rw [hdots]; simp)

theorem mem_dropClosing {c : Char} (hc : c ≠ ')') : c ∈ dropClosing s ↔ c ∈ s := by
  rw [← List.count_pos_iff, ← List.count_pos_iff, dropClosing, List.count_reverse,
    Text.count_dropWhile (by simpa using hc), List.count_reverse]

theorem forall₂_concat_iff {α : Type} {r : α → α → Prop} (hr : ∀ x, r x x) (xs : List α) (x y : α) :
    List.Forall₂ r (xs ++ [x]) (xs ++ [y]) ↔ r x y := by
  induction xs with
  | nil => simp
  | cons z xs ih => simp [hr, ih]

/-- The texts of which patterns are read where parameters are written: those of the parameters, but the last one
without the parentheses that close it. -/
def texts (ps : List String) (p : String) : List (List Char) :=
  ps.map String.toList ++ [dropClosing p.toList]

section

variable {ps : List String} {p : String}

theorem neat_of_mem_texts (hps : ∀ q ∈ ps ++ [p], TypeName q.toList) : ∀ s ∈ texts ps p, Neat s := by
  intro s hs
  obtain hs | hs := List.mem_append.mp hs
  · obtain ⟨q, hq, rfl⟩ := List.mem_map.mp hs
    exact (hps q (by simp [hq])).neat
  · obtain rfl := List.mem_singleton.mp hs
    exact (hps p (by simp)).neat_open

theorem comma_not_mem_texts :
    (∀ s ∈ texts ps p, ',' ∉ s) ↔ ∀ q ∈ ps ++ [p], ',' ∉ q.toList := by
  simp [texts, or_imp, forall_and, mem_dropClosing]

theorem paramsIn_written (hps : ∀ q ∈ ps ++ [p], TypeName q.toList) :
    paramsIn (dropClosing (", ".intercalate (ps ++ [p])).toList) =
      some (((texts ps p).flatMap pieces).map String.ofList) := by
  have hlast : dropClosing p.toList ∈ texts ps p := by simp [texts]
  rw [← paramsIn_intercalate (neat_of_mem_texts hps) hlast (hps p (by simp)).nonempty, texts,
    ← dropClosing_intercalate]
  simp

/-- If there are no commas in the parameters, each is the pattern for itself but for the last. -/
theorem paramsAccept_texts (hps : ∀ q ∈ ps ++ [p], TypeName q.toList) (hnone : ∀ s ∈ texts ps p, ',' ∉ s) :
    paramsAccept (((texts ps p).flatMap pieces).map String.ofList) (ps ++ [p]) = true ↔
      Glob.Spared ')' p.toList := by
  have hneat := neat_of_mem_texts hps
  have hsame : ((texts ps p).flatMap pieces).map String.ofList =
      ps ++ [String.ofList (dropClosing p.toList)] := by
    rw [flatMap_pieces hneat hnone]
    simp [texts, Function.comp_def]
  rw [paramsAccept_iff_forall₂ (dots_not_mem_pieces hneat), hsame, forall₂_concat_iff Glob.accepts_self,
    Glob.accepts, String.toList_ofList, dropClosing_eq, Glob.acceptsChars_rdropWhile_iff]

end

/-- Parameters written one after the other are read as patterns for themselves, unless there is a comma in one
of them or the last has lost parentheses. -/
theorem paramsAccept_written {ps : List String} (hps : ∀ p ∈ ps, TypeName p.toList) :
    (paramsIn (dropClosing (", ".intercalate ps).toList)).all (fun qs => paramsAccept qs ps) = true ↔
      (∀ p ∈ ps, ',' ∉ p.toList) ∧ ∀ p ∈ ps.getLast?, Glob.Spared ')' p.toList := by
  obtain rfl | ⟨ps, p, rfl⟩ := List.eq_nil_or_concat' ps
  · exact ⟨fun _ => by simp, fun _ => rfl⟩
  rw [paramsIn_written hps, Option.all_some, ← comma_not_mem_texts]
  constructor
  · intro haccept
    have hdots := dots_not_mem_pieces (neat_of_mem_texts hps)
    have hlength := ((paramsAccept_iff_forall₂ hdots).mp haccept).length_eq
    have hnone : ∀ s ∈ texts ps p, ',' ∉ s := comma_not_mem_of_length (by simpa [texts] using hlength.le)
    exact ⟨hnone, by simpa using (paramsAccept_texts hps hnone).mp haccept⟩
  · rintro ⟨hnone, hspared⟩
    exact (paramsAccept_texts hps hnone).mpr (hspared p (by simp))

theorem acceptsMethod_declaring (m : Method) :
    (⟨m.declaring⟩ : TypePattern).acceptsMethod m none = true ↔ Glob.Spared '+' m.declaring.toList := by
  rw [← Glob.acceptsChars_rdropWhile_iff]
  simp [TypePattern.acceptsMethod, TypePattern.bare, Glob.accepts, List.rdropWhile]

theorem preface_any : Preface "* ".toList := by decide

/-- The pattern that is written from a method accepts it if and only if no parameter type has a comma in it and
neither parentheses at the end of the last nor a plus at the end of the declaring type are lost. -/
theorem written_accepts_iff {m : Method} (hdeclaring : Solid m.declaring.toList)
    (hname : Solid m.name.toList) (hdot : '.' ∉ m.name.toList)
    (hparams : ∀ p ∈ m.params, TypeName p.toList) :
    (ofExecution (written m)).accepts m none = true ↔
      Glob.Spared '+' m.declaring.toList ∧ (∀ p ∈ m.params, ',' ∉ p.toList) ∧
        ∀ p ∈ m.params.getLast?, Glob.Spared ')' p.toList := by
  rw [written, ofExecution_methodText preface_any hdeclaring hname hdot, accepts, evaluate, Bool.and_eq_true,
    Bool.and_eq_true, acceptsMethod_declaring, paramsAccept_written hparams]
  simp [Glob.accepts_self]

/-- Calls back for all users. -/
def visitAll : Method := ⟨"shop::UserService", "visitAll", ["&mut Vec<User>", "fn(&User) -> bool"]⟩

theorem visitAll_matched : (ofExecution (written visitAll)).accepts visitAll none = true :=
  (written_accepts_iff (by decide) (by decide) (by decide) (by decide)).mpr
    ⟨by decide, by decide, by decide⟩

/-- A method with a parameter of several arguments. -/
def putAll : Method := ⟨"Cache", "putAll", ["HashMap<String, u64>"]⟩

theorem putAll_unmatched : ofExecution (written putAll) =
      execution ⟨"Cache"⟩ "putAll" (some ["HashMap<String", "u64>"]) ∧
    (ofExecution (written putAll)).accepts putAll none = false := by
  have hread : ofExecution (written putAll) =
      execution ⟨"Cache"⟩ "putAll" (some ["HashMap<String", "u64>"]) := rfl
  refine ⟨hread, ?_⟩
  rw [hread]
  decide

end Weaving.Expression
