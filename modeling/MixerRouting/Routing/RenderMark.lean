/-!
# Marking the render thread

Render code runs inside a scope. A scope sets the mark and remembers how it
found it; when it is closed it puts that back. Scopes are meant to be closed
in the reverse order of their opening, but nothing enforces that: a scope that
is closed out of turn puts back what it found all the same.
-/
namespace MixerRouting

structure RenderMark where
  /-- Whether the thread counts as the render thread. -/
  rendering : Bool := false
  /-- What each scope found when it was opened, `none` once it is closed. Closed scopes at the end
  of the list are forgotten. -/
  scopes : List (Option Bool) := []
  deriving DecidableEq, Repr

namespace RenderMark

def enter (m : RenderMark) : RenderMark :=
  { rendering := true, scopes := m.scopes ++ [some m.rendering] }

/-- The list without the closed scopes at its end. -/
def trim (scopes : List (Option Bool)) : List (Option Bool) :=
  (scopes.reverse.dropWhile Option.isNone).reverse

/-- Closes the scope with the given number in the order of opening; nothing happens if it is
closed already. -/
def leave (m : RenderMark) (number : Nat) : RenderMark :=
  match m.scopes[number]? with
  | some (some found) => { rendering := found, scopes := trim (m.scopes.set number none) }
  | _ => m

/-- Closes the scope that is last in the list. -/
def leaveNewest (m : RenderMark) : RenderMark := m.leave (m.scopes.length - 1)

@[simp] theorem enter_rendering (m : RenderMark) : m.enter.rendering = true := rfl

end RenderMark

end MixerRouting
