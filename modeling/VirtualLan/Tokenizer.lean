import VirtualLan.Text

/-! The loop at the top of `handleResponse`, over the functions of `std::string` that
it calls. It cuts the command down from the front while it collects the tokens. -/

namespace VirtualLan.Peer

/-- The first position of a pattern; without one, `npos`. -/
def find (text pattern : Bytes) : Option Nat :=
  (List.range (text.length + 1)).find? fun pos => pattern.isPrefixOf (text.drop pos)

def substr (text : Bytes) (pos count : Nat) : Bytes := (text.drop pos).take count

def erase (text : Bytes) (pos count : Nat) : Bytes := text.take pos ++ text.drop (pos + count)

def delimiter : Bytes := bytes " "

/-- The variables that outlive a pass. -/
structure Locals where
  tokens : List Bytes
  str : Bytes
  deriving DecidableEq

/-- One pass through the loop, whose condition is that `find` is not `npos`. -/
def takeToken (locals : Locals) : Option Locals :=
  match find locals.str delimiter with
  | none => none
  | some pos =>
    let token := substr locals.str 0 pos
    some { tokens := locals.tokens ++ [token], str := erase locals.str 0 (pos + delimiter.length) }

/-- What is left behind the last delimiter is pushed after the loop. -/
def Locals.pushRest (locals : Locals) : List Bytes := locals.tokens ++ [locals.str]

end VirtualLan.Peer
