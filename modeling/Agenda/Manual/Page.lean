import Agenda.Manual.Usages
/-!
The manual pages. The page of a command says what it does, with examples, and lists its arguments and its options; the
long form has more examples and describes arguments and options at length. Programs that only choose among commands
have a page that lists these.
-/
namespace Agenda

/-- The manual page of a command. -/
structure Manual where
  /-- What the page says in both forms, in lines. -/
  summary : List String
  /-- What only the long form adds, in lines. -/
  examples : List String
  arguments : List Usage
  options : List Usage

namespace Manual

/-- The part of an option's format by which options are sorted: its long name, without the short one before it. -/
def sortKey (u : Usage) : String :=
  match u.format.toList.dropWhile (· != '/') with
  | _ :: rest => String.ofList rest
  | [] => u.format

/-- Puts a usage in front of those that do not come before it. -/
def insert (u : Usage) : List Usage → List Usage
  | [] => [u]
  | v :: vs => if sortKey v < sortKey u then v :: insert u vs else u :: v :: vs

/-- The options of a command and those that every command has, in the order of their long names. -/
def allOptions (m : Manual) : List Usage :=
  (Usage.help :: Usage.version :: m.options).foldr insert []

/-- The page in a form, with arguments and options listed by `list`. -/
def page (opening : List String) (list : List Usage → String) (m : Manual) : String :=
  let arguments := list m.arguments
  let options := list m.allOptions
  let body := Usage.text opening
  String.ofList (Text.trim s!"{body}\nREQUIRED ARGUMENTS:\n{arguments}\nOPTIONS:\n{options}".toList)

def short (m : Manual) : String :=
  m.page (m.summary ++ [""]) Usage.table

def long (m : Manual) : String :=
  m.page (m.summary ++ [""] ++ m.examples ++ [""]) Usage.sections

def next : Manual where
  summary := [
    "Compute the next occurrence of a recurrence rule.",
    "",
    "The first positional argument is the date a task is currently scheduled for,",
    "and the second is its recurrence rule. The date printed is the first",
    "occurrence of the rule after today. It is also always after the given date,",
    "even when the given date is already in the future.",
    "",
    "USAGE:",
    "    due next <date> <repeat>",
    "",
    "TIP:",
    "    use -h for short docs and --help for long docs",
    "",
    "EXAMPLES:",
    "    Find the next date of a task repeating every 7 days:",
    "",
    "        $ due next -n 20240201 20240115 'd 7'",
    "        20240205"]
  examples := [
    "    Find the next last day of the month:",
    "",
    "        $ due next -n 20240126 20240126 'm -1'",
    "        20240131",
    "",
    "    Print the next 3 Mondays or Fridays:",
    "",
    "        $ due next -n 20240126 -c 3 20240126 'w 1,5'",
    "        20240129",
    "        20240202",
    "        20240205",
    "",
    "    A task stored on February 29 and repeating every year falls on February",
    "    28 in common years:",
    "",
    "        $ due next -n 20250101 20240229 y",
    "        20250228"]
  arguments := [.date, .recurrence]
  options := [.count, .now]

def rule : Manual where
  summary := [
    "Parse and print recurrence rules.",
    "",
    "Each rule is printed in its canonical form, which has its lists sorted and",
    "deduplicated and its numbers written without leading zeros. Two rules with",
    "the same canonical form always produce the same occurrences.",
    "",
    "With --json, each rule is instead printed as a JSON object describing the kind",
    "of rule and its parameters.",
    "",
    "USAGE:",
    "    due rule <repeat>...",
    "    due rule < line delimited <repeat>",
    "",
    "TIP:",
    "    use -h for short docs and --help for long docs",
    "",
    "EXAMPLES:",
    "    Check that a rule is valid:",
    "",
    "        $ due rule 'm 31,1,-1 06,02'",
    "        m -1,1,31 2,6"]
  examples := [
    "    Print the structure of a rule:",
    "",
    "        $ due rule --json 'w 5,1'",
    "        \x7b\"kind\":\"weekly\",\"days\":[1,5]\x7d",
    "",
    "    Validate a list of rules, one per line:",
    "",
    "        $ printf 'd 7\\ny\\n' | due rule",
    "        d 7",
    "        y"]
  arguments := [.recurrences]
  options := [.json]

def taskCheck : Manual where
  summary := [
    "Validate tasks and move stale due dates forward.",
    "",
    "This is the check done when a task is created or edited. Every task read must",
    "have a non-empty title, a date in the `YYYYMMDD` format (or no date at all)",
    "and either no recurrence rule or a valid one. Each task is then printed with",
    "its date normalized:",
    "",
    "* A missing date becomes today.",
    "* A date before today becomes today for one-shot tasks, and the next",
    "occurrence after today for repeating tasks.",
    "* A date on or after today is left alone.",
    "",
    "The first invalid task stops processing with an error that includes its line",
    "number.",
    "",
    "USAGE:",
    "    due task check <path>...",
    "    due task check < line delimited <task>",
    "",
    "TIP:",
    "    use -h for short docs and --help for long docs",
    "",
    "EXAMPLES:",
    "    Normalize a new task with no date:",
    "",
    "        $ echo '\x7b\"title\":\"water plants\",\"repeat\":\"d 3\"\x7d' | due task check -n 20240126",
    "        \x7b\"id\":\"\",\"date\":\"20240126\",\"title\":\"water plants\",\"comment\":\"\",\"repeat\":\"d 3\"\x7d"]
  examples := [
    "    A repeating task with a stale date is moved to its next occurrence:",
    "",
    "        $ echo '\x7b\"id\":\"1\",\"date\":\"20240101\",\"title\":\"rent\",\"repeat\":\"m 1\"\x7d' \\",
    "            | due task check -n 20240126",
    "        \x7b\"id\":\"1\",\"date\":\"20240201\",\"title\":\"rent\",\"comment\":\"\",\"repeat\":\"m 1\"\x7d"]
  arguments := [.paths]
  options := [.now]

def taskDone : Manual where
  summary := [
    "Mark tasks done.",
    "",
    "Every task read is marked done as of today. A task without a recurrence rule",
    "is finished for good and is not printed. A task with a recurrence rule is",
    "printed with its date moved to the next occurrence after today. All other",
    "fields are printed unchanged.",
    "",
    "USAGE:",
    "    due task done <path>...",
    "    due task done < line delimited <task>",
    "",
    "TIP:",
    "    use -h for short docs and --help for long docs",
    "",
    "EXAMPLES:",
    "    Complete a task that repeats every 3 days:",
    "",
    "        $ echo '\x7b\"id\":\"1\",\"date\":\"20240125\",\"title\":\"water plants\",\"repeat\":\"d 3\"\x7d' \\",
    "            | due task done -n 20240126",
    "        \x7b\"id\":\"1\",\"date\":\"20240128\",\"title\":\"water plants\",\"comment\":\"\",\"repeat\":\"d 3\"\x7d"]
  examples := [
    "    One-shot tasks are dropped. To see which tasks were dropped, enable debug",
    "    logging:",
    "",
    "        $ echo '\x7b\"id\":\"2\",\"date\":\"20240125\",\"title\":\"call mom\"\x7d' \\",
    "            | DUE_LOG=debug due task done",
    "        ...|DEBUG|src/cmd/task/done.rs:...: removing one-shot task `2`"]
  arguments := [.paths]
  options := [.now]

def program : String :=
  Usage.text [
    "A personal task scheduler for recurring tasks.",
    "",
    "USAGE:",
    "    due <command> ...",
    "",
    "COMMANDS:",
    "    next  Compute the next occurrence of a recurrence rule",
    "    rule  Parse and print recurrence rules in canonical form",
    "    task  Mark tasks done or normalize new tasks"]

def task : String :=
  Usage.text [
    "Commands for working with tasks.",
    "",
    "Tasks are read and written as line delimited JSON, with one task object per",
    "line. Each task has the string fields `id`, `date`, `title`, `comment` and",
    "`repeat`.",
    "",
    "USAGE:",
    "    due task <command> ...",
    "",
    "COMMANDS:",
    "    check  Validate tasks and move stale due dates forward",
    "    done   Mark tasks done, printing the ones that repeat"]

def version : String :=
  "Due 0.1.0"

end Manual

end Agenda
