import EnumGen.Proofs.Code.Methods

/-!
# The header of a generated file

Tags stand in literals, but the file name and the user stand in the header as they are. Each newline
in them starts a line that no longer belongs to a comment. So the header is six comments and a blank
line, with the package clause below it, exactly if neither holds a newline
(`origin_in_comments_iff`).
-/

namespace EnumGen.Code

/-! ## Counting lines -/

/-- A text that ends with a newline has as many lines as newlines. -/
lemma length_textLines (s : List Char) :
    (textLines (s ++ ['\n'])).length = s.count '\n' + 1 := by
  induction s with
  | nil => rfl
  | cons c s ih =>
    rw [List.cons_append, textLines]
    by_cases newline : c = '\n'
    · rw [if_pos newline, newline, List.count_cons_self, List.length_cons, ih]
    · rw [if_neg newline, List.count_cons_of_ne newline]
      cases h : textLines (s ++ ['\n']) with
      | nil =>
        rw [h] at ih
        cases ih
      | cons l ls =>
        rw [h] at ih
        exact ih

lemma length_textLines_ended (ls : List (List Char)) :
    (textLines (ended ls)).length = (ls.map (·.count '\n' + 1)).sum := by
  induction ls with
  | nil => rfl
  | cons l ls ih =>
    have split : ended (l :: ls) = l ++ '\n' :: ended ls := by
      simp [ended]
    rw [split, textLines_append_newline, List.length_append, length_textLines, ih, List.map_cons,
      List.sum_cons]

/-! ## The stamp -/

lemma newline_not_mem_pad {filler : Char} (no : filler ≠ '\n') (width n : Nat) :
    '\n' ∉ (Stamp.pad filler width n).toList := by
  have digits : '\n' ∉ (toString n).toList := by
    rw [Nat.toString_eq_ofList_toDigits, String.toList_ofList]
    intro mem
    exact absurd (Nat.isDigit_of_mem_toDigits (by decide) (by decide) mem) (by decide)
  rw [Stamp.pad, String.toList_append, String.toList_ofList, List.mem_append, List.mem_replicate]
  rintro (⟨-, is⟩ | mem)
  · exact no is.symm
  · exact digits mem

/-- A stamp is one line, whatever numbers make it up. -/
lemma newline_not_mem_stamp (s : Stamp) : '\n' ∉ s.text.toList := by
  have named {names : List String} (one : ∀ n ∈ names, '\n' ∉ n.toList) (i : Nat) :
      '\n' ∉ (names[i]?.getD "").toList := by
    cases found : names[i]? with
    | none => exact List.not_mem_nil
    | some n => exact one n (List.mem_of_getElem? found)
  have day : '\n' ∉ (Stamp.dayNames[s.weekday]?.getD "").toList := named (by decide) _
  have month : '\n' ∉ (Stamp.monthNames[s.month - 1]?.getD "").toList := named (by decide) _
  have year : '\n' ∉ (Stamp.yearText s.year).toList := by
    rw [Stamp.yearText, String.toList_append, List.mem_append, not_or]
    refine ⟨?_, newline_not_mem_pad (by decide) _ _⟩
    split
    · decide
    · split <;> decide
  simp [Stamp.text, day, month, year, newline_not_mem_pad]

/-! ## Comments -/

/-- A generated file says when, from which file and for whom it was generated, above its package
clause. -/
lemma render_eq_header (f : Flavour) (o : Origin) (d : Document) :
    ∃ rest, render f o d = "// DO NOT EDIT.\n//\n// Generated: " ++ o.stamp.text ++
      "\n// From:      " ++ o.filename ++ "\n// By:        " ++ o.user ++
      "\n//\n\npackage " ++ d.package ++ "\n" ++ rest := by
  refine ⟨String.join ((behindLines f d).map (· ++ "\n")), ?_⟩
  rw [← String.toList_inj]
  simp [render, lines, headerLines, behindLines]

/-- The file starts with six comments and a blank line. From there on it is what the document alone
makes it. -/
def OriginInComments (f : Flavour) (o : Origin) (d : Document) : Prop :=
  ∃ comments : List (List Char), comments.length = 6 ∧ (∀ l ∈ comments, "//".toList <+: l) ∧
    textLines (render f o d).toList = comments ++ [] ::
      ("package " ++ d.package).toList :: (behindLines f d).map String.toList

/-- The header takes seven lines, and one more for each newline in what it records. -/
lemma length_textLines_header (o : Origin) :
    (textLines (ended ((headerLines o).map String.toList))).length =
      7 + o.filename.toList.count '\n' + o.user.toList.count '\n' := by
  have stamp := List.count_eq_zero.mpr (newline_not_mem_stamp o.stamp)
  have counts : ((headerLines o).map String.toList).map (·.count '\n' + 1) =
      [1, 1, 1, o.filename.toList.count '\n' + 1, o.user.toList.count '\n' + 1, 1, 1] := by
    simp [headerLines, stamp]
  rw [length_textLines_ended, counts]
  simp only [List.sum_cons, List.sum_nil]
  omega

variable {f : Flavour} {o : Origin} {d : Document}

lemma newline_not_mem_of_originInComments (wf : d.WellFormed) (holds : OriginInComments f o d) :
    '\n' ∉ o.filename.toList ∧ '\n' ∉ o.user.toList := by
  obtain ⟨comments, six, -, text⟩ := holds
  rw [textLines_render_header f o wf] at text
  have lengths := congrArg List.length text
  rw [List.length_append, List.length_append, length_textLines_header, List.length_cons,
    List.length_cons, List.length_cons, six] at lengths
  rw [← List.count_eq_zero, ← List.count_eq_zero]
  omega

lemma originInComments_of_newline_not_mem (f : Flavour) (wf : d.WellFormed)
    (filename : '\n' ∉ o.filename.toList) (user : '\n' ∉ o.user.toList) :
    OriginInComments f o d := by
  have one : ∀ l ∈ (headerLines o).map String.toList, '\n' ∉ l := by
    simp [headerLines, newline_not_mem_stamp, filename, user]
  refine ⟨((headerLines o).take 6).map String.toList, rfl, ?_, ?_⟩
  · simp [headerLines]
  · rw [textLines_render_header f o wf, textLines_ended one]
    rfl

/-- What a generated file records of its origin stays in the comments of its header exactly if
neither the file name nor the user holds a newline. -/
theorem origin_in_comments_iff {source : String} (f : Flavour) (o : Origin)
    (read : Document.parse source = .ok d) :
    OriginInComments f o d ↔ '\n' ∉ o.filename.toList ∧ '\n' ∉ o.user.toList := by
  obtain ⟨wf, -⟩ := Document.wellFormed_of_parse read
  constructor
  · exact newline_not_mem_of_originInComments wf
  · rintro ⟨filename, user⟩
    exact originInComments_of_newline_not_mem f wf filename user

/-- Text that looks like the end of a comment, or like code, stays where it is. -/
theorem origin_in_comments_lookalikes :
    ∃ d, Document.parse "package p" = .ok d ∧
      OriginInComments .json ⟨"*/\r.enum", "me */ package q", ⟨2015, 3, 7, 9, 5, 1⟩⟩ d := by
  have read : Document.parse "package p" = .ok ⟨"p", []⟩ := by cbv
  exact ⟨_, read, (origin_in_comments_iff .json _ read).mpr (by decide)⟩

/-- Behind a newline, the user goes on with a line of code. -/
theorem origin_in_comments_newline :
    ∃ d, Document.parse "package p" = .ok d ∧
      "var x int".toList ∈ textLines (render .std
        ⟨"a.enum", "me\nvar x int", ⟨2015, 3, 7, 9, 5, 1⟩⟩ d).toList ∧
      ¬OriginInComments .std ⟨"a.enum", "me\nvar x int", ⟨2015, 3, 7, 9, 5, 1⟩⟩ d := by
  have read : Document.parse "package p" = .ok ⟨"p", []⟩ := by cbv
  obtain ⟨wf, -⟩ := Document.wellFormed_of_parse read
  refine ⟨_, read, ?_, ?_⟩
  · rw [textLines_render_header _ _ wf]
    decide
  · intro holds
    exact absurd (newline_not_mem_of_originInComments wf holds) (by decide)

end EnumGen.Code
