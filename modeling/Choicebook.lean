import Choicebook.Main
import Choicebook.Proofs.Choice.Listing
import Choicebook.Proofs.Choice.Macros
import Choicebook.Proofs.Choice.References
import Choicebook.Proofs.Choice.Respelling
import Choicebook.Proofs.Condition.Membership
import Choicebook.Proofs.Condition.Misreading
import Choicebook.Proofs.Console.Capturing
import Choicebook.Proofs.Console.Editing
import Choicebook.Proofs.Console.Hosting
import Choicebook.Proofs.Editor.Clipboard
import Choicebook.Proofs.Editor.Lines
import Choicebook.Proofs.Json.Saving
import Choicebook.Proofs.Script.Presets
import Choicebook.Proofs.Session.Announcement
import Choicebook.Proofs.Session.Branch
import Choicebook.Proofs.Session.Browsing
import Choicebook.Proofs.Session.Cancellation
import Choicebook.Proofs.Session.Descent
import Choicebook.Proofs.Session.Entrances
import Choicebook.Proofs.Session.Failure
import Choicebook.Proofs.Session.Freshness
import Choicebook.Proofs.Session.Isolation
import Choicebook.Proofs.Session.Lookup
import Choicebook.Proofs.Session.Members
import Choicebook.Proofs.Session.Missing
import Choicebook.Proofs.Session.Nested
import Choicebook.Proofs.Session.Output
import Choicebook.Proofs.Session.Remains
import Choicebook.Proofs.Session.Route
import Choicebook.Proofs.Session.ScriptCall
import Choicebook.Proofs.Session.Termination
import Choicebook.Proofs.Session.Variables
import Choicebook.Proofs.Session.Verdict
import Choicebook.Session.Rehearsal
