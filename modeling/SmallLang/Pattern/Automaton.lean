import SmallLang.Pattern

/-!
# Automata for patterns

An automaton is a row of steps with numbers. `Pattern.prepend` puts the steps for a pattern in front
of an automaton: it only adds steps, so the numbers of the others stay. A counted repetition has
steps for each of its rounds, an unbounded one goes back to the start of its last round.
-/

set_option autoImplicit false

namespace SmallLang

/-- A step of an automaton. -/
inductive Step where
  /-- Takes a character of the set and goes on. -/
  | take (s : CharSet) (next : Nat)
  /-- Goes on where the condition holds. -/
  | test (a : Anchor) (next : Nat)
  /-- Goes on in either of two ways, the first one preferred. -/
  | fork (first second : Nat)
  /-- The match is complete. -/
  | accept
  deriving DecidableEq, Repr

/-- The steps of an automaton and the one to start with. -/
structure Automaton where
  steps : Array Step
  start : Nat

namespace Automaton

/-- The automaton that accepts at once. -/
def done : Automaton := ⟨#[.accept], 0⟩

/-- Adds a step and starts with it. -/
def add (a : Automaton) (s : Step) : Automaton :=
  let start := a.steps.size
  ⟨a.steps.push s, start⟩

/-- Adds a step that goes on in either of two ways, the first one preferred if `greedy`. -/
def addFork (a : Automaton) (greedy : Bool) (first second : Nat) : Automaton :=
  a.add (if greedy then .fork first second else .fork second first)

end Automaton

namespace Pattern

/-- The number of steps for a pattern. -/
def stepCount : Pattern → Nat
  | nothing => 0
  | text cs => cs.length
  | char _ => 1
  | anchor _ => 1
  | group _ p => p.stepCount
  | seq p q => p.stepCount + q.stepCount
  | alt p q => p.stepCount + q.stepCount + 1
  | repeated p least most _ =>
      match most with
      | some m => least * p.stepCount + (m - least) * (p.stepCount + 1)
      | none => max least 1 * p.stepCount + if least = 0 ∧ p.isNullable then 2 else 1

/-- The automaton that matches the pattern and goes on as the given one. -/
def prepend : Pattern → Automaton → Automaton
  | nothing, a => a
  | text cs, a => cs.foldr (fun c a => let next := a.start; a.add (.take (.single c) next)) a
  | char s, a =>
      let next := a.start
      a.add (.take s next)
  | anchor c, a =>
      let next := a.start
      a.add (.test c next)
  | group _ p, a => p.prepend a
  | seq p q, a => p.prepend (q.prepend a)
  | alt p q, a =>
      let next := a.start
      let ⟨steps, second⟩ := q.prepend a
      let ⟨steps, first⟩ := p.prepend ⟨steps, next⟩
      Automaton.add ⟨steps, first⟩ (.fork first second)
  | repeated p least (some most) greedy, a =>
      let exit := a.start
      -- From each round beyond the least number the repetition may be left.
      let a := Nat.repeat
        (fun a => let a := p.prepend a; let first := a.start; a.addFork greedy first exit)
        (most - least) a
      Nat.repeat p.prepend least a
  | repeated p least none greedy, a =>
      let exit := a.start
      -- The last round ends with a fork back to its start.
      let back := a.steps.size + p.stepCount
      let ⟨steps, round⟩ := p.prepend ⟨a.steps, back⟩
      let ⟨steps, _⟩ := Automaton.addFork ⟨steps, round⟩ greedy round exit
      match least with
      | 0 =>
          -- A round that may be empty is entered by a fork of its own, and the other is only met
          -- after a round.
          if p.isNullable then Automaton.addFork ⟨steps, round⟩ greedy round exit
          else ⟨steps, back⟩
      | n + 1 => Nat.repeat p.prepend n ⟨steps, round⟩

/-- The automaton for a pattern. A pattern that may begin anywhere comes after any number of
characters, preferably few. -/
def automaton (p : Pattern) : Automaton :=
  let a := p.prepend .done
  if p.isAnchored then a else (repeated (char .all) 0 none false).prepend a

end Pattern

end SmallLang
