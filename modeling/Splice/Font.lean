/-! # Font files

The places where a font of each weight may be installed, best first.
-/

namespace Splice.Font

def regularPaths : List String := [
  "/usr/share/fonts/truetype/dejavu/DejaVuSans.ttf",
  "/usr/share/fonts/truetype/liberation/LiberationSans-Regular.ttf",
  "/usr/share/fonts/truetype/noto/NotoSans-Regular.ttf",
  "/System/Library/Fonts/Supplemental/Arial.ttf"]

def boldPaths : List String := [
  "/usr/share/fonts/truetype/dejavu/DejaVuSans-Bold.ttf",
  "/usr/share/fonts/truetype/liberation/LiberationSans-Bold.ttf",
  "/usr/share/fonts/truetype/noto/NotoSans-Bold.ttf",
  "/System/Library/Fonts/Supplemental/Arial Bold.ttf"]

def find? (installed : String → Bool) (bold : Bool) : Option String :=
  (if bold then boldPaths else regularPaths).find? installed

end Splice.Font
