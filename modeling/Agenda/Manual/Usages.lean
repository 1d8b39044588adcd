import Agenda.Manual.Usage
/-!
The options and arguments of all commands, as the manual pages show them.
-/
namespace Agenda.Usage

def text (lines : List String) : String :=
  "\n".intercalate lines

def help : Usage :=
  ⟨"-h/--help",
    "Print the help output for Due.",
    text [
      "Print the help output for Due.",
      "",
      "Unlike most other flags, the behavior of the short flag, -h, and the long flag,",
      "--help, is different. The short flag will show a condensed help output while",
      "the long flag will show a verbose help output, including examples and the",
      "complete documentation for every flag."]⟩

def version : Usage :=
  ⟨"--version",
    "Print the version of Due.",
    text [
      "Print the version of Due."]⟩

def now : Usage :=
  ⟨"-n/--now <date>",
    "Use this date as today (in the `YYYYMMDD` format).",
    text [
      "Use this date as today (in the `YYYYMMDD` format).",
      "",
      "Every computed occurrence is strictly after today. By default, today is the",
      "current date in your system's time zone. The `DUE_NOW` environment variable",
      "can also be used to change what today is for every command."]⟩

def count : Usage :=
  ⟨"-c/--count <number>",
    "The number of occurrences to print (defaults to 1).",
    text [
      "The number of occurrences to print (defaults to 1).",
      "",
      "Each occurrence after the first is computed from the one before it. That is,",
      "the previous occurrence is used as both the stored date and today."]⟩

def json : Usage :=
  ⟨"--json",
    "Print each rule as a JSON object.",
    text [
      "Print each rule as a JSON object.",
      "",
      "The object always has a `kind` field, which is one of `daily`, `yearly`,",
      "`weekly` or `monthly`. Daily rules have an `interval`. Weekly rules have a",
      "list of `days`. Monthly rules have a list of `days` and a list of `months`,",
      "where the latter is `null` when the rule applies to every month."]⟩

def date : Usage :=
  ⟨"<date>",
    "A date in the `YYYYMMDD` format, e.g., `20240126`.",
    text [
      "A date in the `YYYYMMDD` format, e.g., `20240126`.",
      "",
      "Exactly 8 digits are required, with no separators, sign or surrounding",
      "whitespace. The date must exist in the Gregorian calendar, so `20230229` is",
      "rejected while `20240229` is accepted."]⟩

def recurrence : Usage :=
  ⟨"<repeat>",
    "A recurrence rule, e.g., `d 7`, `y`, `w 1,3` or `m 1,-1`.",
    text [
      "A recurrence rule, e.g., `d 7`, `y`, `w 1,3` or `m 1,-1`.",
      "",
      "Rules that contain spaces need to be quoted. See `due rule --help` for the",
      "full syntax."]⟩

def recurrences : Usage :=
  ⟨"<repeat>...",
    "One or more recurrence rules, or line delimited on stdin.",
    text [
      "One or more recurrence rules. When none are given as positional arguments,",
      "they are read from stdin, one per line.",
      "",
      "A rule is one of the following, with tokens separated by a single space:",
      "",
      "`d <n>` repeats every `n` days, where `n` is in the range `1..=400`.",
      "",
      "`y` repeats every year on the same month and day. February 29 falls on",
      "February 28 in years without one.",
      "",
      "`w <days>` repeats on the given days of the week, as a comma separated list",
      "where `1` is Monday and `7` is Sunday.",
      "",
      "`m <days> [<months>]` repeats on the given days of the month, as a comma",
      "separated list of values in the range `1..=31`, or `-1` for the last day of the",
      "month and `-2` for the day before it. An optional second comma separated list",
      "restricts the rule to the given months in the range `1..=12`. Days that don't",
      "exist in a month are skipped for that month."]⟩

def paths : Usage :=
  ⟨"<path>...",
    "Files of line delimited JSON tasks, or tasks on stdin.",
    text [
      "Zero or more files containing tasks. When no files are given, tasks are read",
      "from stdin. A path of `-` also means stdin.",
      "",
      "Each task is a JSON object on its own line with the string fields `id`,",
      "`date`, `title`, `comment` and `repeat`. Missing fields are treated as empty",
      "strings, and blank lines are skipped. For example:",
      "",
      "\x7b\"id\":\"1\",\"date\":\"20240126\",\"title\":\"water plants\",\"repeat\":\"d 3\"\x7d"]⟩

end Agenda.Usage
