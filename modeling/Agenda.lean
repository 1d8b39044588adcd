import Agenda.Main
import Agenda.Manual.Page
import Agenda.Proofs.Recurrence.Canonical
import Agenda.Proofs.Recurrence.LeapDay
import Agenda.Proofs.Recurrence.Anniversary
import Agenda.Proofs.Recurrence.Days
import Agenda.Proofs.Recurrence.FixedWidth
import Agenda.Proofs.Recurrence.Sameness
import Agenda.Proofs.Task.Life
import Agenda.Proofs.Task.Board
import Agenda.Proofs.Task.Check
import Agenda.Proofs.Task.Agreement
import Agenda.Proofs.Json.Reading
import Agenda.Proofs.Json.Tokens
import Agenda.Proofs.Command.ExitCode
import Agenda.Proofs.Command.Dates
import Agenda.Proofs.Command.Normal
import Agenda.Proofs.Json.Values
import Agenda.Proofs.Json.Items
import Agenda.Proofs.Task.Object
import Agenda.Proofs.Task.Reading
import Agenda.Proofs.Command.Forms
import Agenda.Proofs.Command.Spelling
import Agenda.Proofs.Command.Diagnostics
import Agenda.Proofs.Manual.Usage
