import TensorGraph.Files.Path
import TensorGraph.Settings

/-!
# Where repaired models go

A repaired model stands beside its source, under a name with a suffix, or replaces it.
-/

namespace TensorGraph.Settings

/-- The name of a repaired copy: the suffix stands before the extension. -/
def copyName (s : Settings) (source : Path) : String :=
  source.stem?.getD "" ++ s.suffix ++ "." ++ source.extension?.getD "onnx"

/-- Where a repaired model is written: in place of its source, or beside it. -/
def outputPath (s : Settings) (source : Path) : Path :=
  if s.inPlace then source else source.withFileName (s.copyName source)

/-- Whether a path looks like that of a repaired copy. -/
def isOutput (s : Settings) (p : Path) : Bool :=
  !s.inPlace && !s.suffix.isEmpty &&
    p.stem?.any fun stem => s.suffix.toList.isSuffixOf stem.toList

end TensorGraph.Settings
