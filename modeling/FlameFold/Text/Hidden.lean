import FlameFold.Text.Category

/-!
# Characters that are not shown

A message shows a character by its number if the character has no picture of its own:
control and format characters, separators other than the space, unassigned and private
ones, marks on the character before them, and letters that only fill a place.
-/

namespace FlameFold.Text

/-- Marks that take room and yet belong to the character before them. -/
def boundMarks : List Nat :=
  [0x9BE, 0x9D7, 0xB3E, 0xB57, 0xBBE, 0xBD7, 0xCC0, 0xCC2, 0xCC7, 0xCC8, 0xCCA, 0xCCB, 0xCD5,
    0xCD6, 0xD3E, 0xD57, 0xDCF, 0xDDF, 0x1715, 0x1734, 0x1B35, 0x1B3B, 0x1B3D, 0x1B43, 0x1B44,
    0x1BAA, 0x1BF2, 0x1BF3, 0x302E, 0x302F, 0xA953, 0xA9C0, 0x111C0, 0x11235, 0x1133E, 0x1134D,
    0x11357, 0x113B8, 0x113C2, 0x113C5, 0x113C7, 0x113C8, 0x113C9, 0x113CF, 0x114B0, 0x114BD,
    0x115AF, 0x116B6, 0x11930, 0x1193D, 0x11F41, 0x16FF0, 0x16FF1, 0x1D165, 0x1D166, 0x1D16D,
    0x1D16E, 0x1D16F, 0x1D170, 0x1D171, 0x1D172]

/-- Letters that fill a place and show nothing. -/
def fillers : List Nat := [0x115F, 0x1160, 0x3164, 0xFFA0]

/-- Whether a character is not shown as itself. -/
def isHidden (c : Char) : Bool :=
  match category c with
  | .control | .format | .surrogate | .privateUse | .unassigned => true
  | .lineBreak | .paragraphBreak | .flatMark | .enclosingMark => true
  | .space => c != ' '
  | .spacingMark => boundMarks.contains c.toNat
  | .otherLetter => fillers.contains c.toNat
  | _ => false

end FlameFold.Text
