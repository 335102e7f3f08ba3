import VirtualShell.Tree.FileSystem

/-!
# The default tree

The file system that every new session starts with: a home directory with some documents, a guest
account, a few files under `/etc` and `/var`, and the manual pages.
-/

namespace VirtualShell.DefaultTree

/-- Lines of text, each with its line feed. -/
def lines (ls : List String) : String :=
  String.join (ls.map (· ++ "\n"))

/-! ## File contents -/

def bashrc : String := lines [
  "# ~/.bashrc: read when a memshell session starts",
  "",
  "# Aliases",
  "alias ll='ls -la'",
  "alias la='ls -a'",
  "alias l='ls'",
  "",
  "# Environment",
  "export EDITOR=vi"]

def readme : String := lines [
  "Welcome to memshell!",
  "",
  "Everything here lives in memory:",
  "- a hierarchical filesystem",
  "- Unix-like commands with pipes and redirection",
  "- aliases and environment variables",
  "- tab completion",
  "",
  "Try these commands:",
  "- ls -la",
  "- cat documents/notes.md",
  "- mkdir test && cd test",
  "- echo \"Hello World\" > hello.txt",
  "- cat hello.txt | grep Hello"]

def notes : String := lines [
  "# memshell notes",
  "",
  "## Redirection",
  "echo \"content\" > file.txt",
  "echo \"more content\" >> file.txt",
  "wc -l < file.txt",
  "",
  "## Chaining",
  "mkdir -p build && cd build || echo \"could not enter build\""]

def exampleJs : String := lines [
  "// Example JavaScript file",
  "function greet(name) \x7b",
  "  return `Hello, $\x7bname\x7d!`;",
  "\x7d",
  "",
  "console.log(greet(\"memshell\"));"]

def todo : String := lines [
  "Project TODOs:",
  "",
  "[ ] Add more commands",
  "[x] Pipes and redirection",
  "[x] Aliases"]

def secret : String := lines [
  "This is a hidden file.",
  "",
  "Files whose names start with a dot are only listed by `ls -a`."]

def passwd : String := lines [
  "root:x:0:0:root:/root:/bin/bash",
  "user:x:1000:1000:User,,,:/home/user:/bin/bash",
  "guest:x:1001:1001:Guest User,,,:/home/guest:/bin/bash"]

def hosts : String := lines [
  "127.0.0.1\tlocalhost",
  "127.0.1.1\tmemshell"]

def version : String := lines [
  "memshell 1.0.0",
  "In-memory Unix-like environment"]

def systemLog : String := lines [
  "[info] memshell started",
  "[info] filesystem loaded"]

/-! ## Manual pages -/

/-- What a manual page says about a command. -/
structure ManualPage where
  name : String
  summary : String
  synopsis : String
  description : List String

/-- The commands that have a manual page. -/
def manualPages : List ManualPage := [
  { name := "ls", summary := "list directory contents", synopsis := "ls [-a] [-l] [FILE]...",
    description := ["-a  do not ignore entries starting with .", "-l  use a long listing format"] },
  { name := "cd", summary := "change the working directory", synopsis := "cd [DIR]",
    description := ["With no DIR, change to the home directory."] },
  { name := "cat", summary := "concatenate files and print them", synopsis := "cat [FILE]...",
    description := ["With no FILE, read standard input."] },
  { name := "grep", summary := "print lines that match a pattern",
    synopsis := "grep [-i] [-v] [-n] [-c] PATTERN [FILE]...",
    description := ["-i  ignore case", "-v  select non-matching lines", "-n  prefix line numbers",
      "-c  print only a count of matching lines"] },
  { name := "alias", summary := "define or display aliases",
    synopsis := "alias [NAME[='COMMAND']]...",
    description := ["With no arguments, print all aliases."] },
  { name := "echo", summary := "display a line of text", synopsis := "echo [-n] [STRING]...",
    description := ["-n  do not output the trailing newline"] }]

/-- The text of a manual page. -/
def ManualPage.text (page : ManualPage) : String :=
  let indent := "       "
  lines ([
    Text.padEnd 40 (page.name.toUpper ++ "(1)") ++ "User Commands",
    "",
    "NAME",
    indent ++ page.name ++ " - " ++ page.summary,
    "",
    "SYNOPSIS",
    indent ++ page.synopsis,
    "",
    "DESCRIPTION"] ++ page.description.map (indent ++ ·))

/-! ## The tree -/

/-- A directory of the tree, holding nodes under their own names. -/
def dir (now : Timestamp) (name : String) (nodes : List Node)
    (permissions : Json := Node.directoryPermissions) : Node :=
  Node.newDirectory now name (nodes.map fun n => (n.name, n)) permissions

/-- The root of the default tree, made at a moment. -/
def root (now : Timestamp) : Node :=
  let file := fun name content => Node.newFile now name content
  let guarded := fun name content permissions => Node.newFile now name content (.str permissions)
  dir now "/" [
    dir now "home" [
      dir now "user" [
        dir now "documents" [
          file "readme.txt" readme,
          file "notes.md" notes,
          dir now "projects" [
            file "example.js" exampleJs,
            file "todo.txt" todo]],
        dir now "downloads" [],
        file ".bashrc" bashrc,
        guarded ".secret" secret "-rw-------"],
      dir now "guest" [
        guarded "welcome.txt" "Welcome, guest!\n" "-r--r--r--"]],
    dir now "etc" [
      file "hostname" "memshell\n",
      file "passwd" passwd,
      file "hosts" hosts,
      guarded "version" version "-r--r--r--"],
    dir now "var" [
      dir now "log" [
        file "system.log" systemLog]],
    dir now "tmp" [],
    dir now "usr" [
      dir now "bin" [],
      dir now "share" [
        dir now "man" [
          dir now "man1" (manualPages.map fun page => file (page.name ++ ".1") page.text)]]],
    dir now "root" [] (.str "drwx------")]

/-- The default tree with the home directory as working directory. -/
def fileSystem (now : Timestamp) : FileSystem :=
  { root := root now, cwd := Path.home }

end VirtualShell.DefaultTree
