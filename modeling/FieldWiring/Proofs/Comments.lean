import FieldWiring.Proofs.Decoding

/-!
# Comments in front of classes

The header of a source is a text of its own, put line by line behind stars into a comment.
Nothing that ends a comment comes about where a star, a dropped carriage return and a line end
meet, so the comment is as long as it should be exactly if the header does not end it, and the
header can be read back from it up to its line ends.
-/

namespace FieldWiring

namespace Text

/-! ## Lines and their ends -/

/-- The text with a line feed alone for each carriage return and the line feed behind it. -/
def feedsOnly : List Char → List Char
  | [] => []
  | '\r' :: '\n' :: rest => '\n' :: feedsOnly rest
  | c :: rest => c :: feedsOnly rest

/-- The text has a last line that no line feed ends. -/
def LeavesLineOpen (text : List Char) : Prop := text ≠ [] ∧ text.getLast? ≠ some '\n'

instance (text : List Char) : Decidable (LeavesLineOpen text) :=
  inferInstanceAs (Decidable (_ ∧ _))

/-- The text with a line feed behind its last line. -/
def closed (text : List Char) : List Char :=
  if LeavesLineOpen text then text ++ ['\n'] else text

/-- The text without a line feed that ends it; one before that stays. -/
def withoutFinalFeed (text : List Char) : List Char :=
  if text.getLast? = some '\n' then text.dropLast else text

variable {text mark left right : List Char} {c : Char}

theorem closed_cons (hline : text ≠ [] ∨ c = '\n') : closed (c :: text) = c :: closed text := by
  cases text with
  | nil =>
      obtain rfl : c = '\n' := hline.resolve_left (by simp)
      rfl
  | cons d rest =>
      have hopen : LeavesLineOpen (c :: d :: rest) ↔ LeavesLineOpen (d :: rest) := by
        simp [LeavesLineOpen]
      rw [closed, closed]
      by_cases hrest : LeavesLineOpen (d :: rest)
      · rw [if_pos (hopen.mpr hrest), if_pos hrest, List.cons_append]
      · rw [if_neg (mt hopen.mp hrest), if_neg hrest]

theorem feedsOnly_cons {rest : List Char}
    (hpair : ∀ others, c = '\r' → rest = '\n' :: others → False) :
    feedsOnly (c :: rest) = c :: feedsOnly rest := by
  rw [feedsOnly]
  exact hpair

theorem getLast?_feedsOnly (text : List Char) : (feedsOnly text).getLast? = text.getLast? := by
  fun_induction feedsOnly text with
  | case1 => rfl
  | case2 rest ih => simp [List.getLast?_cons, ih]
  | case3 c rest hreturn ih => rw [List.getLast?_cons, List.getLast?_cons, ih]

/-- Only the empty text has no characters left. -/
theorem feedsOnly_eq_nil_iff : feedsOnly text = [] ↔ text = [] := by
  rw [← List.getLast?_eq_none_iff, getLast?_feedsOnly, List.getLast?_eq_none_iff]

/-- Whether a last line is open does not depend on the form of the line ends. -/
theorem leavesLineOpen_feedsOnly_iff : LeavesLineOpen (feedsOnly text) ↔ LeavesLineOpen text := by
  rw [LeavesLineOpen, LeavesLineOpen, getLast?_feedsOnly, ne_eq, feedsOnly_eq_nil_iff]

theorem count_feedsOnly (text : List Char) :
    (feedsOnly text).count '\n' = text.count '\n' := by
  fun_induction feedsOnly text with
  | case1 => rfl
  | case2 rest ih => simp [ih]
  | case3 c rest hreturn ih => rw [List.count_cons, List.count_cons, ih]

theorem lines_eq_nil_iff : lines text = [] ↔ text = [] := by
  fun_cases lines text <;> simp_all

/-- Lines written out again are the text, with nothing but line feeds behind them. -/
theorem unlines_lines (text : List Char) : unlines (lines text) = closed (feedsOnly text) := by
  fun_induction lines text with
  | case1 => rfl
  | case2 rest ih =>
      have hfeeds : feedsOnly ('\n' :: rest) = '\n' :: feedsOnly rest :=
        feedsOnly_cons (by simp)
      rw [unlines_cons, ih, List.nil_append, hfeeds, closed_cons (Or.inr rfl)]
  | case3 rest ih =>
      rw [unlines_cons, ih, List.nil_append, feedsOnly, closed_cons (Or.inr rfl)]
  | case4 c rest hnewline hreturn hempty ih =>
      -- The last character of the text ends no line, so a line feed is put behind it.
      obtain rfl : rest = [] := lines_eq_nil_iff.mp hempty
      have hopen : LeavesLineOpen [c] := by simpa [LeavesLineOpen] using hnewline
      rw [feedsOnly_cons hreturn, feedsOnly, closed, if_pos hopen, unlines_cons, unlines_nil]
  | case5 c rest hnewline hreturn first others hlines ih =>
      have hrest : feedsOnly rest ≠ [] := by
        rw [ne_eq, feedsOnly_eq_nil_iff, ← lines_eq_nil_iff, hlines]
        exact List.cons_ne_nil first others
      rw [hlines, unlines_cons] at ih
      rw [feedsOnly_cons hreturn, closed_cons (Or.inl hrest), ← ih, unlines_cons,
        List.cons_append]

/-! ## Joining lines -/

/-- Lines with a line feed behind each are lines with line feeds between them, and one more at
the end. -/
theorem unlines_eq_intercalate {rows : List (List Char)} (hrows : rows ≠ []) :
    unlines rows = List.intercalate ['\n'] rows ++ ['\n'] := by
  induction rows with
  | nil => exact absurd rfl hrows
  | cons row rows ih =>
      cases rows with
      | nil => rw [List.intercalate_singleton, unlines_cons, unlines_nil]
      | cons next others =>
          rw [unlines_cons, ih (List.cons_ne_nil next others), List.intercalate_cons_cons,
            List.append_assoc, List.append_assoc, List.singleton_append]

theorem intercalate_eq_dropLast (rows : List (List Char)) :
    List.intercalate ['\n'] rows = (unlines rows).dropLast := by
  cases rows with
  | nil => rfl
  | cons row rows =>
      rw [unlines_eq_intercalate (List.cons_ne_nil row rows), List.dropLast_concat]

theorem dropLast_closed (text : List Char) : (closed text).dropLast = withoutFinalFeed text := by
  rw [closed, withoutFinalFeed]
  by_cases hopen : LeavesLineOpen text
  · rw [if_pos hopen, if_neg hopen.2, List.dropLast_concat]
  · rw [if_neg hopen]
    cases text with
    | nil => rfl
    | cons c rest =>
        rw [LeavesLineOpen, not_and_not_right] at hopen
        rw [if_pos (hopen (List.cons_ne_nil c rest))]

theorem intercalate_append_singleton {rows : List (List Char)} (hrows : rows ≠ [])
    (last : List Char) :
    List.intercalate ['\n'] (rows ++ [last]) = List.intercalate ['\n'] rows ++ '\n' :: last := by
  rw [intercalate_eq_dropLast, unlines_append, unlines_eq_intercalate hrows, unlines_cons,
    unlines_nil, ← List.append_assoc, List.dropLast_concat, List.append_assoc,
    List.singleton_append]

/-- Joined lines are the text, up to its line ends and without the last one. -/
theorem intercalate_lines (text : List Char) :
    List.intercalate ['\n'] (lines text) = withoutFinalFeed (feedsOnly text) := by
  rw [intercalate_eq_dropLast, unlines_lines, dropLast_closed]

/-- The lines of a text are what stands between its line feeds. -/
theorem lines_eq_splitOn (hnonempty : text ≠ []) :
    lines text = (withoutFinalFeed (feedsOnly text)).splitOn '\n' := by
  rw [← intercalate_lines, List.splitOn_intercalate]
  · intro line hmem
    exact newline_not_mem_of_mem_lines hmem
  · rw [ne_eq, lines_eq_nil_iff]
    exact hnonempty

/-- A blank line is a line, and a carriage return that ends nothing stays. -/
example : lines "a\r\n\nb\r".toList = ["a".toList, [], "b\r".toList] := by decide

theorem count_unlines {rows : List (List Char)} (hrows : ∀ row ∈ rows, '\n' ∉ row) :
    (unlines rows).count '\n' = rows.length := by
  induction rows with
  | nil => rfl
  | cons row rows ih =>
      obtain ⟨hrow, hrows⟩ := List.forall_mem_cons.mp hrows
      rw [unlines_cons, List.count_append, List.count_cons_self, ih hrows,
        List.count_eq_zero.mpr hrow, List.length_cons, Nat.zero_add]

/-- Closing the last line adds a line feed where one is missing. -/
theorem count_closed (text : List Char) :
    (closed text).count '\n' = text.count '\n' + if LeavesLineOpen text then 1 else 0 := by
  rw [closed]
  split_ifs <;> simp

/-- A line feed ends a line, and a last line may go without. -/
theorem length_lines (text : List Char) :
    (lines text).length = text.count '\n' + if LeavesLineOpen text then 1 else 0 := by
  calc
    (lines text).length = (unlines (lines text)).count '\n' :=
      (count_unlines fun _ => newline_not_mem_of_mem_lines).symm
    _ = (closed (feedsOnly text)).count '\n' := by rw [unlines_lines]
    _ = text.count '\n' + if LeavesLineOpen text then 1 else 0 := by
      rw [count_closed, count_feedsOnly]
      simp only [leavesLineOpen_feedsOnly_iff]

/-! ## Marks inside of lines -/

section Mark

variable (hmark : mark ≠ []) (hnewline : '\n' ∉ mark)

include hmark in
/-- A mark stands on one side of any character that it does not have. -/
theorem infix_append_cons_iff (hc : c ∉ mark) :
    mark <:+: left ++ c :: right ↔ mark <:+: left ∨ mark <:+: right := by
  have hfront : ∀ {part : List Char}, part ⊆ mark → part <+: c :: right → part = [] := by
    intro part hpart hbegins
    cases part with
    | nil => rfl
    | cons d part =>
        obtain ⟨rfl, -⟩ := List.cons_prefix_cons.mp hbegins
        exact absurd (hpart List.mem_cons_self) hc
  rw [List.infix_append_iff, List.infix_cons_iff]
  constructor
  · intro h
    rcases h with hleft | (hright | hright) | ⟨front, back, rfl, hleft, hright⟩
    · exact Or.inl hleft
    · exact absurd (hfront (List.Subset.refl mark) hright) hmark
    · exact Or.inr hright
    · -- A mark across the character would have to end in front of it.
      obtain rfl : back = [] := hfront (List.subset_append_right front back) hright
      rw [List.append_nil]
      exact Or.inl hleft.isInfix
  · intro h
    rcases h with hleft | hright
    · exact Or.inl hleft
    · exact Or.inr (Or.inl (Or.inr hright))

include hmark in
theorem infix_cons_iff_of_notMem (hc : c ∉ mark) : mark <:+: c :: right ↔ mark <:+: right := by
  rw [← List.nil_append (c :: right), infix_append_cons_iff hmark hc, List.infix_nil,
    or_iff_right hmark]

include hmark hnewline

/-- A mark without line feeds stands in a text of lines exactly if it stands in one of these. -/
theorem infix_unlines_iff {rows : List (List Char)} :
    mark <:+: unlines rows ↔ ∃ row ∈ rows, mark <:+: row := by
  induction rows with
  | nil => simp [hmark]
  | cons row rows ih =>
      rw [unlines_cons, infix_append_cons_iff hmark hnewline, ih]
      simp

theorem infix_intercalate_iff {rows : List (List Char)} (hrows : rows ≠ []) :
    mark <:+: List.intercalate ['\n'] rows ↔ ∃ row ∈ rows, mark <:+: row := by
  rw [← infix_unlines_iff hmark hnewline, unlines_eq_intercalate hrows,
    infix_append_cons_iff hmark hnewline, List.infix_nil, or_iff_left hmark]

/-- A mark without line feeds is neither made nor broken at the end of the last line. -/
theorem infix_closed_iff : mark <:+: closed text ↔ mark <:+: text := by
  rw [closed]
  split_ifs with hopen
  · rw [infix_append_cons_iff hmark hnewline, List.infix_nil, or_iff_left hmark]
  · rfl

omit hmark in
theorem prefix_feedsOnly_iff (hreturn : '\r' ∉ mark) :
    mark <+: feedsOnly text ↔ mark <+: text := by
  fun_induction feedsOnly text generalizing mark with
  | case1 => rfl
  | case2 rest ih =>
      cases mark with
      | nil => simp
      | cons d mark =>
          rw [List.cons_prefix_cons, List.cons_prefix_cons]
          apply iff_of_false
          · rintro ⟨rfl, -⟩
            exact hnewline List.mem_cons_self
          · rintro ⟨rfl, -⟩
            exact hreturn List.mem_cons_self
  | case3 c rest hpair ih =>
      cases mark with
      | nil => simp
      | cons d mark =>
          rw [List.cons_prefix_cons, List.cons_prefix_cons,
            ih (List.not_mem_of_not_mem_cons hnewline) (List.not_mem_of_not_mem_cons hreturn)]

/-- The form of the line ends makes or breaks no mark without carriage returns. -/
theorem infix_feedsOnly_iff (hreturn : '\r' ∉ mark) :
    mark <:+: feedsOnly text ↔ mark <:+: text := by
  fun_induction feedsOnly text with
  | case1 => rfl
  | case2 rest ih =>
      rw [infix_cons_iff_of_notMem hmark hnewline, ih, infix_cons_iff_of_notMem hmark hreturn,
        infix_cons_iff_of_notMem hmark hnewline]
  | case3 c rest hpair ih =>
      have hfront : mark <+: feedsOnly (c :: rest) ↔ mark <+: c :: rest :=
        prefix_feedsOnly_iff hnewline hreturn
      rw [feedsOnly_cons hpair] at hfront
      rw [List.infix_cons_iff, List.infix_cons_iff, ih, hfront]

/-- A mark without line ends stands in a text exactly if it stands in one of its lines. -/
theorem exists_line_infix_iff (hreturn : '\r' ∉ mark) :
    (∃ line ∈ lines text, mark <:+: line) ↔ mark <:+: text := by
  rw [← infix_unlines_iff hmark hnewline, unlines_lines, infix_closed_iff hmark hnewline,
    infix_feedsOnly_iff hmark hnewline hreturn]

end Mark

/-- Wherever the mark stands in the text, no further line begins behind it. -/
def OnlyInLastLine (mark text : List Char) : Prop :=
  ∀ front back, text = front ++ mark ++ back → '\n' ∉ back

/-- A mark that stands in the last line only does not stand in front of that. -/
theorem onlyInLastLine_iff {body last : List Char} (hlast : '\n' ∉ last) :
    OnlyInLastLine mark (body ++ '\n' :: last) ↔ ¬ mark <:+: body := by
  constructor
  · intro honly hinfix
    obtain ⟨front, back, rfl⟩ := hinfix
    apply honly front (back ++ '\n' :: last)
    · simp
    · simp
  · intro habsent front back hsplit
    rcases List.append_eq_append_iff.mp hsplit with ⟨between, hfront, hback⟩ | ⟨rest, hbody, -⟩
    · cases between with
      | nil =>
          rw [List.append_nil] at hfront
          exact absurd ⟨front, [], by rw [List.append_nil, hfront]⟩ habsent
      | cons c between =>
          rw [List.cons_append, List.cons.injEq] at hback
          intro hmem
          apply hlast
          rw [hback.2]
          exact List.mem_append_right between hmem
    · exact absurd ⟨front, rest, hbody.symm⟩ habsent

end Text

namespace Style

open Text

def terminator : List Char := ['*', '/']

/-- The comment that holds a header, from the row that opens it to the row that ends it. -/
def comment (header : String) : List Char :=
  List.intercalate ['\n'] ((headerRows (some header)).map String.toList)

/-- The rows of a header are its lines, each behind a star, between the rows that open and end
the comment. -/
theorem toList_headerRows (header : String) :
    (headerRows (some header)).map String.toList =
      "/**".toList :: (lines header.toList).map (" * ".toList ++ ·) ++ [" */".toList] := by
  simp [headerRows, commentRows]

theorem written_headerRows (header : String) :
    written (headerRows (some header)) = comment header ++ ['\n'] :=
  unlines_eq_intercalate (by simp [headerRows])

/-- The comment stands between the imports and the class. -/
theorem toList_render_of_header (style : Style) (header : String) (injector : Injector) :
    (({ style with header := some header } : Style).render injector).toList =
      written (packageRows style.package ++ importRows (style.marker? injector.parameter)) ++
        comment header ++
          '\n' :: written (classRows (style.marker? injector.parameter) injector) := by
  have hrows : ({ style with header := some header } : Style).rows injector =
      packageRows style.package ++ importRows (style.marker? injector.parameter) ++
        headerRows (some header) ++ classRows (style.marker? injector.parameter) injector := rfl
  rw [toList_render, hrows, written_append, written_append _ (headerRows (some header)),
    written_headerRows]
  simp only [List.append_assoc, List.singleton_append]

/-- The star in front of a line and the line do not end a comment together. -/
theorem terminator_infix_starred_iff (line : List Char) :
    terminator <:+: " * ".toList ++ line ↔ terminator <:+: line := by
  change terminator <:+: [' ', '*'] ++ ' ' :: line ↔ terminator <:+: line
  rw [infix_append_cons_iff (by decide) (by decide), or_iff_right (by decide)]

/-- A comment ends in its last line alone, unless its header ends it earlier. -/
theorem onlyInLastLine_comment_iff (header : String) :
    OnlyInLastLine terminator (comment header) ↔ ¬ terminator <:+: header.toList := by
  have hmark : terminator ≠ [] := by decide
  have hnewline : '\n' ∉ terminator := by decide
  have hopening : ¬ terminator <:+: "/**".toList := by decide
  rw [comment, toList_headerRows, intercalate_append_singleton (List.cons_ne_nil _ _),
    onlyInLastLine_iff (by decide), infix_intercalate_iff hmark hnewline (List.cons_ne_nil _ _),
    ← exists_line_infix_iff hmark hnewline (by decide)]
  simp only [List.mem_cons, exists_eq_or_imp, hopening, false_or, List.mem_map,
    exists_exists_and_eq_and, terminator_infix_starred_iff]

/-- Cutting a comment at its line feeds gives back the lines of the header. -/
theorem splitOn_comment (header : String) :
    (comment header).splitOn '\n' =
      "/**".toList :: (lines header.toList).map (" * ".toList ++ ·) ++ [" */".toList] := by
  rw [comment, toList_headerRows]
  apply List.splitOn_intercalate
  · intro row hmem
    simp only [List.cons_append, List.mem_cons, List.mem_append, List.mem_map,
      List.not_mem_nil, or_false] at hmem
    rcases hmem with rfl | ⟨line, hline, rfl⟩ | rfl
    · decide
    · rw [List.mem_append, not_or]
      exact ⟨by decide, newline_not_mem_of_mem_lines hline⟩
    · decide
  · exact List.cons_ne_nil _ _

/-- The comment in front of a class ends where it should exactly if the header has nothing that
ends a comment.  Behind the stars its rows are the lines of the header, blank ones included:
joined again they give the header back, except that its lines end in line feeds alone and the
last one does not.  There are as many of them as there are line feeds in the header, and one
more for a last line that none ends. -/
theorem comment_holds_header (style : Style) (header : String) (injector : Injector) :
    (({ style with header := some header } : Style).render injector).toList =
      written (packageRows style.package ++ importRows (style.marker? injector.parameter)) ++
        comment header ++
          '\n' :: written (classRows (style.marker? injector.parameter) injector) ∧
    (OnlyInLastLine terminator (comment header) ↔ ¬ terminator <:+: header.toList) ∧
    ∃ held : List (List Char),
      (comment header).splitOn '\n' =
        "/**".toList :: held.map (" * ".toList ++ ·) ++ [" */".toList] ∧
      List.intercalate ['\n'] held = withoutFinalFeed (feedsOnly header.toList) ∧
      held = (if header = "" then []
        else (withoutFinalFeed (feedsOnly header.toList)).splitOn '\n') ∧
      held.length = header.toList.count '\n' +
        if header ≠ "" ∧ header.toList.getLast? ≠ some '\n' then 1 else 0 := by
  refine ⟨toList_render_of_header style header injector, onlyInLastLine_comment_iff header,
    lines header.toList, splitOn_comment header, intercalate_lines header.toList, ?_, ?_⟩
  · split_ifs with hempty
    · rw [hempty]
      rfl
    · exact lines_eq_splitOn (mt String.toList_eq_nil_iff.mp hempty)
  · rw [length_lines]
    simp only [LeavesLineOpen, ne_eq, String.toList_eq_nil_iff]

end Style

end FieldWiring
