import SmallLang.Parsing.Token
import SmallLang.Text.Blank

/-!
# Scanning

A text is cut into tokens. Blanks and comments, which go from a percent sign to the end of the line,
separate tokens. At each place the longest match of a terminal wins; among equally long ones a
literal beats a class, then the class of higher priority, then the terminal used first. A match
without characters does not count.
-/

set_option autoImplicit false

namespace SmallLang

/-- The layout at the start of a text and what comes after it. In a comment everything up to the
line end belongs to the layout. -/
def spanLayout (inComment : Bool) : List Char → List Char × List Char
  | [] => ([], [])
  | c :: cs =>
      if inComment || Text.isBlank c || c == '%' then
        let (layout, rest) := spanLayout (c != '\n' && (inComment || c == '%')) cs
        (c :: layout, rest)
      else ([], c :: cs)

theorem spanLayout_length_le (inComment : Bool) (cs : List Char) :
    (spanLayout inComment cs).2.length ≤ cs.length := by
  fun_induction spanLayout inComment cs with
  | case1 => exact Nat.le_refl _
  | case2 inComment c cs _ layout rest heq ih =>
      rw [heq] at ih
      exact Nat.le_succ_of_le ih
  | case3 => exact Nat.le_refl _

/-- How the text of a terminal is found: the length of its match at the start of a text. -/
structure Recognizer where
  terminal : Terminal
  matchLength : List Char → Option Nat

/-- A terminal that matches at the start of a text, and how long the match is. -/
structure Candidate where
  length : Nat
  terminal : Terminal
  index : Nat

namespace Candidate

/-- Whether the terminal is a literal. -/
def isLiteral (c : Candidate) : Bool :=
  match c.terminal with
  | .literal _ => true
  | .ofClass _ => false

/-- The priority of a class. Literals are not compared by it. -/
def priority (c : Candidate) : Int32 :=
  match c.terminal with
  | .literal _ => 0
  | .ofClass cls => cls.priority

/-- Whether a candidate wins against another one. -/
def beats (a b : Candidate) : Bool :=
  if a.length ≠ b.length then b.length < a.length
  else if a.isLiteral ≠ b.isLiteral then a.isLiteral
  else if a.priority ≠ b.priority then b.priority < a.priority
  else a.index < b.index

/-- The candidate that wins against all others. -/
def best? : List Candidate → Option Candidate
  | [] => none
  | c :: cs =>
      match best? cs with
      | none => some c
      | some d => if d.beats c then some d else some c

end Candidate

/-- The recognizers of a grammar's terminals, by number. -/
structure Scanner where
  recognizers : List Recognizer

namespace Scanner

/-- The recognizer of a terminal. The patterns of classes are compiled by `compile?`. -/
def recognizer (compile? : String → Option (List Char → Option Nat)) (t : Terminal) :
    Except AssemblyError Recognizer :=
  match t with
  | .literal text =>
      .ok ⟨t, fun cs => if text.toList.isPrefixOf cs then some text.length else none⟩
  | .ofClass c =>
      match compile? c.pattern with
      | some matchLength => .ok ⟨t, matchLength⟩
      | none => .error (.invalidPattern c.name)

/-- The scanner for the terminals of an arena. -/
def ofArena (compile? : String → Option (List Char → Option Nat)) (arena : Arena) :
    Except AssemblyError Scanner :=
  (arena.terminals.mapM (recognizer compile?)).map Scanner.mk

/-- The terminals that match at the start of a text. -/
def candidates (s : Scanner) (rest : List Char) : List Candidate :=
  s.recognizers.zipIdx.filterMap fun (r, i) =>
    match r.matchLength rest with
    | some (n + 1) => some ⟨n + 1, r.terminal, i⟩
    | _ => none

/-- The best match at the start of a text. -/
def longestMatch? (s : Scanner) (rest : List Char) : Option Candidate :=
  Candidate.best? (s.candidates rest)

theorem mem_of_best? {cs : List Candidate} {c : Candidate} (h : Candidate.best? cs = some c) :
    c ∈ cs := by
  fun_induction Candidate.best? cs with
  | case1 => simp at h
  | case2 d cs _ _ => simp_all
  | case3 d cs e he hbeats ih => exact List.mem_cons_of_mem _ (by simp_all)
  | case4 d cs e he hbeats ih => simp_all

theorem length_pos_of_longestMatch? {s : Scanner} {rest : List Char} {c : Candidate}
    (h : s.longestMatch? rest = some c) : 0 < c.length := by
  have hmem := mem_of_best? h
  obtain ⟨⟨r, i⟩, _, hr⟩ := List.mem_filterMap.1 hmem
  simp only at hr
  split at hr
  · simp only [Option.some.injEq] at hr
    rw [← hr]
    exact Nat.succ_pos _
  · simp at hr

/-- The token at the start of a text that begins with no layout, and the text after it. -/
def nextToken (s : Scanner) (position : Position) (rest : List Char) :
    Except ParseError (Token × List Char) :=
  match s.longestMatch? rest with
  -- The message shows the text up to the next blank.
  | none =>
      let word := rest.takeWhile fun c => !Text.isBlank c
      .error (.unrecognizedToken (String.ofList word) position)
  | some c =>
      let text := String.ofList (rest.take c.length)
      (c.terminal.decode text position).map fun v =>
        (⟨c.index, text, v, position⟩, rest.drop c.length)

theorem nextToken_length_lt {s : Scanner} {position : Position} {rest after : List Char}
    {token : Token} (h : s.nextToken position rest = .ok (token, after)) (hne : rest ≠ []) :
    after.length < rest.length := by
  unfold nextToken at h
  split at h
  · simp at h
  · rename_i c hc
    have hpos := length_pos_of_longestMatch? hc
    have hlen := List.length_pos_iff.2 hne
    cases hd : c.terminal.decode (String.ofList (rest.take c.length)) position with
    | error e => simp [hd, Except.map] at h
    | ok v =>
        simp only [hd, Except.map, Except.ok.injEq, Prod.mk.injEq] at h
        rw [← h.2, List.length_drop]
        omega

/-- The tokens of a text that begins at the given place. -/
def scanFrom (s : Scanner) (position : Position) (cs : List Char) :
    Except ParseError (List Token) :=
  let span := spanLayout false cs
  -- Nothing is left but layout.
  if hne : span.2 = [] then .ok []
  else
    let here := position.advance span.1
    match h : s.nextToken here span.2 with
    | .error e => .error e
    | .ok (token, after) =>
        have : after.length < cs.length :=
          Nat.lt_of_lt_of_le (nextToken_length_lt h hne) (spanLayout_length_le false cs)
        (s.scanFrom (here.advance token.text.toList) after).map (token :: ·)
termination_by cs.length

/-- The tokens of a text. -/
def tokenize (s : Scanner) (text : String) : Except ParseError (List Token) :=
  s.scanFrom Position.start text.toList

end Scanner

end SmallLang
