import BrokerAccess.CommandLine
import BrokerAccess.Password.Stored
import BrokerAccess.Text.Utf8

/-!
# The password generator

A program that writes a password in the form in which records store it. A salt that the
command line does not give is drawn from letters and digits.
-/

namespace BrokerAccess.PasswordTool

open CommandLine (Given Halt OptionSpec)

/-- What the command line asks for. -/
structure Request where
  /-- The password. -/
  password : String
  /-- The salt, drawn by lot if absent. -/
  salt : Option String := none
  /-- The iteration count. -/
  iterations : Nat := 100
  /-- Print the stored password only. -/
  quiet : Bool := false
  deriving DecidableEq, Repr

/-- An iteration count: at least one. -/
def iterations? (text : String) : Option Nat :=
  (Decimal.readBelow? iterationBound text.toList).filter (1 ≤ ·)

/-- The options of the generator. A password must not be empty. -/
def specs : List OptionSpec :=
  [⟨"password", some 'p', some (· ≠ "")⟩, ⟨"salt", some 's', some fun _ => true⟩,
    ⟨"iterations", some 'i', some fun text => (iterations? text).isSome⟩,
    ⟨"quiet", some 'q', none⟩]

/-- The request that options make. A password must be given. -/
def request? (given : Given) : Option Request := do
  let password ← given.lookup "password"
  let iterations ← ((given.lookup "iterations").map iterations?).getD (some 100)
  some ⟨password, given.lookup "salt", iterations, (given.lookup "quiet").isSome⟩

/-- The request of a command line. -/
def read (arguments : List String) : Except Halt Request :=
  match CommandLine.read specs arguments with
  | .error halt => .error halt
  | .ok given =>
    match request? given with
    | none => .error .usage
    | some request => .ok request

/-- The characters that salts are drawn from. -/
def saltAlphabet : List Char :=
  "ABCDEFGHIJKLMNOPQRSTUVWXYZabcdefghijklmnopqrstuvwxyz0123456789".toList

/-- The length of a drawn salt. -/
def saltLength : Nat := 32

/-- The salt that a draw of numbers gives. -/
def drawnSalt (numbers : List Nat) : String :=
  String.ofList ((numbers.take saltLength).map fun n =>
    saltAlphabet.getD (n % saltAlphabet.length) 'A')

/-- What the generator prints for a request, when `drawn` is the salt drawn by lot. -/
def output (request : Request) (drawn : String) : Except HashError String := do
  let salt := request.salt.getD drawn
  let stored ← Password.encode (Utf8.bytes request.password) (Utf8.bytes salt) request.iterations
  if request.quiet then return stored ++ "\n"
  return "Iterations: " ++ toString request.iterations ++ "\nSalt:       " ++ salt ++
    "\n\nUse this string as the password of a user in credentials.toml:\n" ++ stored ++ "\n"

end BrokerAccess.PasswordTool
