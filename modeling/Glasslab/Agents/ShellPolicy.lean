import Glasslab.Foundation.Patterns
import Glasslab.Schemas
import Mathlib.Data.String.Basic

/-!
# The shell policy of the agents

The runtime writes, for each agent, a map from command patterns to permissions. The map is
serialized with its keys sorted, and the agent runner lets the last pattern that matches a
command decide, so what a command may do depends on how the patterns spell.
-/

namespace Glasslab.Agents

open Foundation

inductive Permission where
  | allow
  | deny
  deriving DecidableEq, Repr

/-- An insertion-ordered dictionary from patterns to permissions. -/
abbrev Rules := List (String × Permission)

def legacyDeniedShell : Rules :=
  [("kubectl *", .deny), ("ssh *", .deny), ("scp *", .deny), ("docker *", .deny),
   ("podman *", .deny), ("git push*", .deny), ("gh pr create*", .deny), ("*secret*", .deny),
   ("curl *", .deny), ("curl.exe *", .deny), ("wget *", .deny), ("nc *", .deny),
   ("ncat *", .deny), ("fetch *", .deny), ("telnet *", .deny), ("ftp *", .deny),
   ("socat *", .deny)]

def honeydewExtraDeniedShell : Rules :=
  [("git commit*", .deny), ("git checkout*", .deny), ("git switch*", .deny)]

def safeBashCommands : List String :=
  ["pwd", "ls", "cat", "head", "tail", "wc", "grep", "rg", "sort", "uniq", "diff", "tree",
   "jq", "mkdir", "cp", "mv", "rm", "touch", "echo", "pytest", "python3 -m pytest"]

def safeGitSubcommands : List String :=
  ["git status", "git diff", "git log", "git show", "git add", "git commit", "git rev-parse",
   "git branch", "git stash"]

def deniedBashCommands : List String :=
  ["kubectl", "kubectl *", "ssh", "ssh *", "scp", "scp *", "docker", "docker *", "podman",
   "podman *", "curl", "curl *", "curl.exe *", "wget", "wget *", "nc", "nc *", "ncat",
   "ncat *", "socat", "socat *", "telnet", "telnet *", "ftp", "ftp *", "env", "env *",
   "printenv", "printenv *", "sh", "sh *", "bash", "bash *", "dash *", "zsh *", "python3 -c*",
   "python -c*", "python2 -c*", "node -e*", "node --eval*", "sh -c*", "bash -c*", "perl -e*",
   "ruby -e*", "git push*", "*secret*", "*/dev/tcp*", "awk", "awk *", "sed", "sed *", "find",
   "find *", "xargs", "xargs *", "make", "make *", "tar", "tar *", "unzip", "unzip *", "tee",
   "tee *", "git -c*", "git -C*", "git --exec-path*", "git config*", "git help*",
   "git difftool*", "git mergetool*", "git -p*", "git --paginate*", "git fetch*", "git pull*",
   "git clone*", "git remote*", "git submodule*", "git rebase*", "git filter-branch*"]

def safeCommandRules (command : String) : Rules :=
  [(command, .allow),
   (s!"{command} *", .allow),
   (s!"{command} *secret*", .deny),
   (s!"{command} */dev/tcp*", .deny),
   (s!"{command} */proc*", .deny),
   (s!"{command} */etc/glasslab*", .deny)]

def bashPermissionRules (agentBashAllowlistEnabled : Bool) (agent : AgentName) : Rules :=
  if !agentBashAllowlistEnabled then
    let rules := Dict.merge [("*", .allow)] legacyDeniedShell
    if agent = .honeydew then Dict.merge rules honeydewExtraDeniedShell else rules
  else
    let rules : Rules := [("*", .deny)]
    let rules := deniedBashCommands.foldl (fun rules pattern => Dict.set pattern .deny rules) rules
    let rules := (safeBashCommands ++ safeGitSubcommands).foldl
      (fun rules command => Dict.merge rules (safeCommandRules command)) rules
    if agent = .honeydew then
      (honeydewExtraDeniedShell.map Prod.fst).foldl
        (fun rules pattern => Dict.set pattern .deny rules) rules
    else rules

/-- A pattern with `*` matches a text. -/
def patternMatches (text pattern : String) : Bool := Pattern.fits '*' pattern.toList text.toList

/-- How the agent runner reads a map that was serialized with its keys sorted. -/
def evaluate (rules : Rules) (text : String) : Option Permission :=
  Pattern.lastMatch (patternMatches text) (sortOn Prod.fst rules)

/-- A permission is a mode, or a map of patterns. -/
inductive Setting where
  | mode (permission : Permission)
  | rules (rules : Rules)

def runDirectories : List String := ["protocol", "shared-artifacts", "reports", "events"]

def externalDirectories (runRoot : Option String) : Rules :=
  match runRoot with
  | none => [("*", .deny)]
  | some root =>
    runDirectories.foldl (fun rules name => Dict.set s!"{root}/{name}/*" .allow rules)
      [("*", .deny)]

def permissions (agentBashAllowlistEnabled : Bool) (agent : AgentName)
    (runRoot : Option String) : List (String × Setting) :=
  [("*", .mode .allow),
   ("doom_loop", .mode .deny),
   ("external_directory", .rules (externalDirectories runRoot)),
   ("lsp", .mode .deny),
   ("question", .mode .deny),
   ("skill", .mode .deny),
   ("task", .mode .deny),
   ("webfetch", .mode .deny),
   ("websearch", .mode .deny),
   ("bash", .rules (bashPermissionRules agentBashAllowlistEnabled agent))]

end Glasslab.Agents
