/-!
# Room

What lies in directories or in brackets is worked on by calls inside calls, and only so many may be
open at once. How deep things may lie is what the limit leaves inside the calls that are open when
such work begins: those of the program that asks for it, and those that lead to the first call that
repeats itself.
-/

namespace TemplateBindings

/-- How many calls may be open at once. -/
def callLimit : Nat := 1000

/-- **The room** that is left inside some open calls. -/
def roomInside (calls : Nat) : Nat := callLimit - calls

end TemplateBindings
