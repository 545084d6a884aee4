/-
**Options of the command line.**

* `Options.ofArguments`: the options that arguments give.
-/

namespace Gatehouse

/-- What can be chosen on the command line. -/
structure Options where
  /-- The path of the configuration. -/
  config : String
  logLevel : String
deriving DecidableEq, Repr

/-- Why arguments give no options. -/
inductive OptionFault where
  | unexpected (argument : String)
  | noValue (option : String)
deriving DecidableEq, Repr

def OptionFault.message : OptionFault → String
  | .unexpected argument => "unexpected argument '" ++ argument ++ "'"
  | .noValue option => "a value is required for '" ++ option ++ "'"

namespace Options

/-- The options without any argument. -/
def standard : Options := ⟨"authgate.yaml", "info"⟩

/-- What an option sets. -/
def setter? (option : String) : Option (String → Options → Options) :=
  if option = "-c" ∨ option = "--config" then
    some fun value options => { options with config := value }
  else if option = "-l" ∨ option = "--log-level" then
    some fun value options => { options with logLevel := value }
  else none

/-- The options that arguments give, each option followed by its value. -/
def ofArguments (options : Options) : List String → Except OptionFault Options
  | [] => .ok options
  | option :: rest =>
    match setter? option with
    | none => .error (.unexpected option)
    | some set =>
      match rest with
      | [] => .error (.noValue option)
      | value :: rest => ofArguments (set value options) rest

end Options

end Gatehouse
