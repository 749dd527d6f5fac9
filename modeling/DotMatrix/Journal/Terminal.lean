import DotMatrix.Journal.Notice

/-! # The terminal

Where a program writes its lines: results on one stream, the journal and complaints on the other.
-/
namespace DotMatrix

class Terminal (m : Type → Type) where
  print : String → m Unit
  complain : String → m Unit

namespace Terminal

variable {m : Type → Type} [Monad m] [Terminal m]

def tell (verbosity : Verbosity) (n : Notice) : m Unit :=
  if verbosity.admits n.level then complain n.line else return ()

end Terminal
end DotMatrix
