import VirtualShell.Builtin.Files
import VirtualShell.Builtin.Filters
import VirtualShell.Builtin.Navigation
import VirtualShell.Builtin.Settings

/-!
# Running a command

Every command takes its arguments and the text that is piped or redirected into it, and answers with
a result. A user's mistake is reported in the result.
-/

namespace VirtualShell.Builtin

/-- Runs a command with arguments and input. -/
def run (b : Builtin) (args : List String) (stdin : Option String) : Shell Result :=
  match b with
  | .defineAlias => runAlias args
  | .cat => runCat args stdin
  | .cd => runCd args
  | .clear => return .request .clearScreen
  | .echo => return runEcho args
  | .printVariables => runEnv
  | .exportVariables => runExport args
  | .fail => return { success := false, exitCode := 1 }
  | .grep => runGrep args stdin
  | .head => runHead args stdin
  | .help => return runHelp args
  | .history => runHistory
  | .ls => runLs args
  | .man => runMan args
  | .mkdir => runMkdir args
  | .pwd => runPwd
  | .rm => runRm args
  | .rmdir => runRmdir args
  | .sort => runSort args stdin
  | .source => runSource args
  | .tail => runTail args stdin
  | .touch => runTouch args
  | .succeed => return .ok
  | .removeAliases => runUnalias args
  | .uniq => runUniq args stdin
  | .unsetVariables => runUnset args
  | .vi => runVi args
  | .wc => runWc args stdin

end VirtualShell.Builtin
