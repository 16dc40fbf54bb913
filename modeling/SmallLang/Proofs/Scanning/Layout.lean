import Mathlib
import SmallLang.Parsing.Scanner

/-!
# Layout and places in a text

The layout between tokens is described by the pattern `(?:\s+|%[^\n]*)+`, here as a language
(`Text.layout`). What the scanner passes over before it looks for a token is empty or in this language
(`spanLayout_layout`), and no layout at the same place is longer (`prefix_spanLayout`).

The scanner moves its place on one character at a time. So it always knows the place that
`Position.after` describes: the bytes, the line ends and the characters after the last line end of the text
before it (`Position.advance_after`).
-/

set_option autoImplicit false

namespace SmallLang

open scoped Computability

namespace Text

/-- The texts of one blank or more, `\s+`. -/
def blanks : Language Char := {cs | cs ≠ [] ∧ ∀ c ∈ cs, isBlank c = true}

/-- The comments without the end of their line, `%[^\n]*`. -/
def comments : Language Char := {cs | ∃ line, cs = '%' :: line ∧ '\n' ∉ line}

/-- The layout, one piece or more of blanks or a comment. -/
def layout : Language Char := (blanks + comments) * (blanks + comments)∗

theorem eq_nil_or_layout_of_kstar {cs : List Char} (h : cs ∈ (blanks + comments)∗) :
    cs = [] ∨ cs ∈ layout := by
  rw [← Language.one_add_self_mul_kstar_eq_kstar] at h
  exact h

theorem blank_append_mem_kstar {c : Char} {cs : List Char} (hc : isBlank c = true)
    (hcs : cs ∈ (blanks + comments)∗) : c :: cs ∈ (blanks + comments)∗ := by
  have hone : [c] ∈ blanks + comments :=
    Or.inl ⟨List.cons_ne_nil _ _, List.forall_mem_singleton.2 hc⟩
  rw [← Language.one_add_self_mul_kstar_eq_kstar]
  exact Or.inr ⟨[c], hone, cs, hcs, rfl⟩

theorem comment_append_mem_kstar {line cs : List Char} (hline : '\n' ∉ line)
    (hcs : cs ∈ (blanks + comments)∗) : '%' :: line ++ cs ∈ (blanks + comments)∗ := by
  have hone : '%' :: line ∈ blanks + comments := Or.inr ⟨line, rfl, hline⟩
  rw [← Language.one_add_self_mul_kstar_eq_kstar]
  exact Or.inr ⟨'%' :: line, hone, cs, hcs, rfl⟩

end Text

open Text

/-! ## What is passed over -/

theorem spanLayout_append (inComment : Bool) (cs : List Char) :
    (spanLayout inComment cs).1 ++ (spanLayout inComment cs).2 = cs := by
  fun_induction spanLayout inComment cs with
  | case1 => rfl
  | case2 inComment c cs _ layout rest heq ih =>
      rw [heq] at ih
      rw [List.cons_append, ih]
  | case3 => rfl

/-- What is left of a comment comes first, then pieces of layout. -/
theorem exists_pieces_of_spanLayout (inComment : Bool) (cs : List Char) :
    ∃ line pieces, (spanLayout inComment cs).1 = line ++ pieces ∧ '\n' ∉ line ∧
      (inComment = false → line = []) ∧ pieces ∈ (blanks + comments)∗ := by
  fun_induction spanLayout inComment cs with
  | case1 => exact ⟨[], [], rfl, List.not_mem_nil, fun _ => rfl, Language.nil_mem_kstar _⟩
  | case2 inComment c cs hc layout rest heq ih =>
      obtain ⟨line, pieces, hlayout, hline, hnone, hpieces⟩ := ih
      rw [heq] at hlayout
      obtain rfl : layout = line ++ pieces := hlayout
      by_cases hend : c = '\n'
      · -- A line end is a blank of its own, also after a comment.
        subst hend
        obtain rfl := hnone rfl
        exact ⟨[], '\n' :: pieces, rfl, List.not_mem_nil, fun _ => rfl,
          blank_append_mem_kstar (by decide) hpieces⟩
      · cases inComment with
        | true =>
            refine ⟨c :: line, pieces, rfl, ?_, fun h => Bool.noConfusion h, hpieces⟩
            exact List.not_mem_cons_of_ne_of_not_mem (Ne.symm hend) hline
        | false =>
            refine ⟨[], c :: (line ++ pieces), rfl, List.not_mem_nil, fun _ => rfl, ?_⟩
            by_cases hpercent : c = '%'
            · subst hpercent
              exact comment_append_mem_kstar hline hpieces
            · have hblank : isBlank c = true := by simpa [hpercent] using hc
              obtain rfl := hnone (by simp [hpercent])
              exact blank_append_mem_kstar hblank hpieces
  | case3 => exact ⟨[], [], rfl, List.not_mem_nil, fun _ => rfl, Language.nil_mem_kstar _⟩

/-- What the scanner passes over is nothing or layout. -/
theorem spanLayout_layout (cs : List Char) :
    (spanLayout false cs).1 = [] ∨ (spanLayout false cs).1 ∈ layout := by
  obtain ⟨line, pieces, hlayout, -, hnone, hpieces⟩ := exists_pieces_of_spanLayout false cs
  rw [hlayout, hnone rfl]
  exact eq_nil_or_layout_of_kstar hpieces

/-- Blanks are passed over in a comment and outside of one. -/
theorem exists_spanLayout_blanks {cs : List Char} (h : ∀ c ∈ cs, isBlank c = true)
    (inComment : Bool) (rest : List Char) :
    ∃ b, (spanLayout inComment (cs ++ rest)).1 = cs ++ (spanLayout b rest).1 := by
  induction cs generalizing inComment with
  | nil => exact ⟨inComment, rfl⟩
  | cons c cs ih =>
      obtain ⟨hc, hcs⟩ := List.forall_mem_cons.1 h
      obtain ⟨b, hb⟩ := ih hcs (c != '\n' && (inComment || c == '%'))
      refine ⟨b, ?_⟩
      rw [List.cons_append, spanLayout, if_pos (by simp [hc])]
      exact congrArg (c :: ·) hb

theorem spanLayout_line {line : List Char} (h : '\n' ∉ line) (rest : List Char) :
    (spanLayout true (line ++ rest)).1 = line ++ (spanLayout true rest).1 := by
  induction line with
  | nil => rfl
  | cons c line ih =>
      obtain ⟨hc, hline⟩ := List.ne_and_not_mem_of_not_mem_cons h
      have hstay : (c != '\n' && (true || c == '%')) = true := by simpa using Ne.symm hc
      rw [List.cons_append, spanLayout, if_pos (by simp), hstay]
      exact congrArg (c :: ·) (ih hline)

/-- A piece of layout is passed over, wherever it stands. -/
theorem exists_spanLayout_piece {cs : List Char} (h : cs ∈ blanks + comments) (inComment : Bool)
    (rest : List Char) : ∃ b, (spanLayout inComment (cs ++ rest)).1 = cs ++ (spanLayout b rest).1 := by
  rcases h with ⟨-, hblanks⟩ | ⟨line, rfl, hline⟩
  · exact exists_spanLayout_blanks hblanks inComment rest
  · refine ⟨true, ?_⟩
    have hstart : ('%' != '\n' && (inComment || '%' == '%')) = true := by simp
    rw [List.cons_append, spanLayout, if_pos (by simp), hstart]
    exact congrArg ('%' :: ·) (spanLayout_line hline rest)

/-- No layout at the same place is longer than what the scanner passes over. -/
theorem prefix_spanLayout {cs rest : List Char} (h : cs ∈ layout) :
    cs <+: (spanLayout false (cs ++ rest)).1 := by
  have hstar : cs ∈ (blanks + comments)∗ := by
    rw [← Language.one_add_self_mul_kstar_eq_kstar]
    exact Or.inr h
  obtain ⟨pieces, rfl, hpieces⟩ := Language.mem_kstar.1 hstar
  have hall : ∀ inComment, ∃ b, (spanLayout inComment (pieces.flatten ++ rest)).1 =
      pieces.flatten ++ (spanLayout b rest).1 := by
    clear h hstar
    induction pieces with
    | nil => exact fun inComment => ⟨inComment, rfl⟩
    | cons piece pieces ih =>
        intro inComment
        obtain ⟨hpiece, hothers⟩ := List.forall_mem_cons.1 hpieces
        obtain ⟨b, hb⟩ := exists_spanLayout_piece hpiece inComment (pieces.flatten ++ rest)
        obtain ⟨b', hb'⟩ := ih hothers b
        refine ⟨b', ?_⟩
        rw [List.flatten_cons, List.append_assoc, hb, hb', List.append_assoc]
  obtain ⟨b, hb⟩ := hall false
  rw [hb]
  exact List.prefix_append _ _

/-! ## Places -/

namespace Position

/-- The place after a text: the offset counts its bytes, the line its line ends, and the column its
characters after the last line end, the last two from one. -/
def after (before : List Char) : Position :=
  ⟨(before.map Char.utf8Size).sum, 1 + before.count '\n',
    1 + (before.reverse.takeWhile (· ≠ '\n')).length⟩

theorem after_nil : after [] = start := rfl

theorem next_after (before : List Char) (c : Char) : (after before).next c = after (before ++ [c]) := by
  have hreverse : (before ++ [c]).reverse = c :: before.reverse := by simp
  unfold next after
  rw [hreverse, List.map_append, List.sum_append, List.count_append]
  split
  · rename_i hc
    subst hc
    rfl
  · rename_i hc
    have hcount : List.count '\n' [c] = 0 := List.count_eq_zero.2 (by simpa using Ne.symm hc)
    rw [hcount, List.takeWhile_cons_of_pos (by simpa using hc)]
    rfl

/-- Moving on over some more text leads to the place after it. -/
theorem advance_after (before cs : List Char) :
    (after before).advance cs = after (before ++ cs) := by
  induction cs generalizing before with
  | nil => rw [advance, List.foldl_nil, List.append_nil]
  | cons c cs ih =>
      have hnext := ih (before ++ [c])
      rw [List.append_assoc, List.singleton_append] at hnext
      rw [← hnext, ← next_after]
      rfl

/-- Lines and columns are no more than the characters before, and one. -/
theorem line_after_le (before : List Char) : (after before).line ≤ before.length + 1 := by
  have hcount : before.count '\n' ≤ before.length := List.count_le_length
  show 1 + before.count '\n' ≤ before.length + 1
  omega

theorem column_after_le (before : List Char) : (after before).column ≤ before.length + 1 := by
  have hlast : (before.reverse.takeWhile (· ≠ '\n')).length ≤ before.reverse.length :=
    (List.takeWhile_sublist _).length_le
  rw [List.length_reverse] at hlast
  show 1 + (before.reverse.takeWhile (· ≠ '\n')).length ≤ before.length + 1
  omega

end Position

end SmallLang
