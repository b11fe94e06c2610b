/-!
# Environment variables

The variables that change the settings of a run.
-/

namespace Brainfuck.Settings

inductive Variable
  | tapeLength | maxSteps | debug
deriving DecidableEq

def Variable.name : Variable → String
  | tapeLength => "BRAINFRY_TAPE_LEN"
  | maxSteps => "BRAINFRY_MAX_STEPS"
  | debug => "BRAINFRY_DEBUG"

end Brainfuck.Settings
