import Storyworld.Document.Problem

/-! Results of checking a document: what was read, or all the problems found. -/

namespace Storyworld

inductive Checked (α : Type) where
  | accepted (a : α)
  | refused (problems : List Problem)

namespace Checked

variable {α β : Type}

def fail (kind : ProblemKind) : Checked α := refused [⟨[], kind⟩]

def map (f : α → β) : Checked α → Checked β
  | accepted a => accepted (f a)
  | refused ps => refused ps

/-- Applies what one check gives to what another gives; the problems of both are kept in order. -/
def ap : Checked (α → β) → Checked α → Checked β
  | accepted f, c => c.map f
  | refused ps, accepted _ => refused ps
  | refused ps, refused qs => refused (ps ++ qs)

def andThen : Checked α → (α → Checked β) → Checked β
  | accepted a, f => f a
  | refused ps, _ => refused ps

def under (segment : Text) : Checked α → Checked α
  | accepted a => accepted a
  | refused ps => refused (ps.map (Problem.under segment))

def all : List (Checked α) → Checked (List α)
  | [] => accepted []
  | c :: cs => (c.map List.cons).ap (all cs)

def toOption : Checked α → Option α
  | accepted a => some a
  | refused _ => none

end Checked

end Storyworld
