import SmallLang.Pattern.Automaton
import SmallLang.Pattern.Marks

/-!
# Searching a pattern in a text

Where a pattern matches several pieces of a text, alternatives are preferred from left to right, and
a repetition prefers to go on (or to stop, if it is reluctant). The search follows all ways through
the automaton at once, in the order of preference. Between two characters a way branches until it
takes the next character or the match is complete; a step that was met there before is passed over,
since the earlier way is preferred and goes on alike. So a repetition never goes on without a
character, and each character is looked at once.
-/

set_option autoImplicit false

namespace SmallLang

namespace Automaton

/-- What was found at a place: the steps to go on with after the next character, the preferred one
last, and whether a match is complete there that is preferred to all that comes later. -/
structure Frontier where
  ahead : List Nat
  complete : Bool
  marks : Marks

/-- Follows the steps at a place in order of preference, up to a complete match. Each round of the
search either passes over a step or marks one and adds at most two, which bounds their number. -/
def spread (steps : Array Step) (c : Place) : Nat → List Nat → Frontier → Frontier
  | 0, _, f => f
  | _ + 1, [], f => f
  | n + 1, i :: work, f =>
      if f.marks.contains i then spread steps c n work f
      else
        let ⟨ahead, complete, marks⟩ := f
        let marks := marks.insert i
        match steps[i]? with
        | some (.take s next) =>
            let ahead := if c.after.any s.mem then next :: ahead else ahead
            spread steps c n work ⟨ahead, complete, marks⟩
        | some (.test a next) =>
            let work := if a.holds c then next :: work else work
            spread steps c n work ⟨ahead, complete, marks⟩
        | some (.fork first second) =>
            spread steps c n (first :: second :: work) ⟨ahead, complete, marks⟩
        | some .accept => ⟨ahead, true, marks⟩
        | none => spread steps c n work ⟨ahead, complete, marks⟩

/-- All that can be reached at a place from some steps, without a character. -/
def frontier (steps : Array Step) (c : Place) (work : List Nat) (marks : Marks) : Frontier :=
  spread steps c (2 * steps.size + work.length + 1) work ⟨[], false, marks⟩

/-- The number of characters up to the end of the preferred match, where `taken` characters were
taken before the place, `best` is the end of the match preferred so far, and the search goes on with
the given steps. -/
def endFrom? (steps : Array Step) (before : Option Char) (work : List Nat) (marks : Marks)
    (taken : Nat) (best : Option Nat) : List Char → Option Nat
  | [] =>
      if (frontier steps ⟨before, []⟩ work marks).complete then some taken else best
  | x :: xs =>
      let ⟨ahead, complete, marks⟩ := frontier steps ⟨before, x :: xs⟩ work marks
      let best := if complete then some taken else best
      if ahead.isEmpty then best
      else endFrom? steps (some x) ahead.reverse marks.clear (taken + 1) best xs

/-- The number of characters up to the end of the preferred match in a text. -/
def findEnd? (a : Automaton) (text : List Char) : Option Nat :=
  endFrom? a.steps none [a.start] (.none a.steps.size) 0 none text

end Automaton

end SmallLang
