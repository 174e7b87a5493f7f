import Depot.Main
import Depot.Proofs.Command.Absolute
import Depot.Proofs.Command.Ending
import Depot.Proofs.Command.Relative
import Depot.Proofs.Redaction.Listing
import Depot.Proofs.RepositoriesFile.RoundTrip
import Depot.Proofs.Roster.Order
import Depot.Proofs.Roster.Spelling
import Depot.Proofs.Session.Holders
import Depot.Proofs.ResourceIndex
import Depot.Proofs.Roster.Sharing
import Depot.Proofs.Session.Index
import Depot.Proofs.Configuration.Fields
import Depot.Proofs.Roster.Configured
import Depot.Proofs.Configuration.InPlace
import Depot.Proofs.Configuration.Directories
import Depot.Proofs.Locator.Placeholder
import Depot.Proofs.Factory.LocalUrl
import Depot.Proofs.Repository.FlatDir
import Depot.Proofs.Redaction.Mask
import Depot.Proofs.Redaction.Message
import Depot.Proofs.Roster.Created
import Depot.Proofs.Roster.Resumed
import Depot.Proofs.Repository.Ivy
import Depot.Proofs.Credentials
import Depot.Proofs.Listing.Lines
import Depot.Proofs.Roster.Search
import Depot.Proofs.Listing.Marks
import Depot.Proofs.Locator.Blank
