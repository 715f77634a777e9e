import LosTrouvee.Library.TransitionSystem
import LosTrouvee.Library.Clock
import LosTrouvee.Library.Table
import LosTrouvee.Library.Ownership
import LosTrouvee.Library.Board
import LosTrouvee.Library.Regex
import LosTrouvee.Library.Split
import LosTrouvee.Objects.Swift
import LosTrouvee.Objects.StringExtension
import LosTrouvee.Objects.Unicode
import LosTrouvee.Objects.Item
import LosTrouvee.Objects.Realm
import LosTrouvee.Objects.Validation
import LosTrouvee.Objects.WellFormed
import LosTrouvee.Objects.UIKit
import LosTrouvee.Objects.Firebase
import LosTrouvee.Controllers.ItemTableViewCell
import LosTrouvee.Controllers.ItemsTableViewController
import LosTrouvee.Controllers.AddItemTableViewController
import LosTrouvee.Controllers.SessionControllers
import LosTrouvee.Controllers.Theorems.List
import LosTrouvee.Controllers.Theorems.Form
import LosTrouvee.Controllers.Theorems.Loading
import LosTrouvee.Controllers.Theorems.Saving
import LosTrouvee.Controllers.Theorems.Email
import LosTrouvee.Controllers.Theorems.Pickers
import LosTrouvee.Controllers.Theorems.Filling
import LosTrouvee.Controllers.Theorems.Credentials
import LosTrouvee.Execution.State
import LosTrouvee.Execution.Step
import LosTrouvee.Execution.Theorems.Transition
import LosTrouvee.Execution.Theorems.Coherence
import LosTrouvee.Execution.Theorems.Origins
import LosTrouvee.Execution.Theorems.Runs
import LosTrouvee.Execution.Theorems.Session
import LosTrouvee.Execution.Theorems.Lists
import LosTrouvee.Execution.Theorems.Ownership
import LosTrouvee.Execution.Theorems.Failure
import LosTrouvee.Execution.Theorems.Flags
import LosTrouvee.Execution.Theorems.Validity
import LosTrouvee.Execution.Theorems.Links
import LosTrouvee.Execution.Theorems.RoundTrip
import LosTrouvee.Execution.Theorems.Progress
import LosTrouvee.Execution.Theorems.Forms
import LosTrouvee.Execution.Theorems.Dates
import LosTrouvee.Execution.Theorems.Provenance
import LosTrouvee.Execution.Theorems.Credentials
import LosTrouvee.Execution.Theorems.Navigation
import LosTrouvee.Execution.Theorems.Posting
import LosTrouvee.Library.LinkGraph
import LosTrouvee.Library.Rows
import LosTrouvee.ObjectStore.Store
import LosTrouvee.ObjectStore.Operations
import LosTrouvee.ObjectStore.Theorems.Promotion
import LosTrouvee.ObjectStore.Theorems.Adding
import LosTrouvee.ObjectStore.Theorems.Termination
import LosTrouvee.ObjectStore.Theorems.Graph
import LosTrouvee.ObjectStore.Theorems.Deleting
import LosTrouvee.ObjectStore.Theorems.Soundness
import LosTrouvee.ObjectStore.Theorems.Runs
import LosTrouvee.ObjectStore.Items
import LosTrouvee.ObjectStore.Theorems.Results
import LosTrouvee.ObjectStore.Theorems.Items
import LosTrouvee.Execution.Theorems.Storage
