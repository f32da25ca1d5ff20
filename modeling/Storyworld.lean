import Storyworld.Demo
import Storyworld.Proofs.RoundTrip
import Storyworld.Proofs.Session
import Storyworld.Service
import Storyworld.Proofs.ArchiveRun
import Storyworld.Proofs.KeptCheckpoint
import Storyworld.Proofs.Hierarchy
import Storyworld.Proofs.Transition
import Storyworld.Proofs.Coordinates
import Storyworld.Proofs.Resolution
import Storyworld.Proofs.Containment
import Storyworld.Proofs.Candidates
import Storyworld.Proofs.Tiers
import Storyworld.Proofs.Roster
import Storyworld.Proofs.Bounds
import Storyworld.Proofs.Independence
import Storyworld.Proofs.ArrayItems
import Storyworld.Proofs.WellTyped
import Storyworld.Proofs.WrittenCalls
import Storyworld.Proofs.Excerpts
import Storyworld.Proofs.LongNumerals
import Storyworld.Proofs.SceneTags
import Storyworld.Proofs.BlockReading
import Storyworld.Proofs.OperatorFaults
import Storyworld.Proofs.CommandReadBack
import Storyworld.Proofs.Magnitudes
import Storyworld.Proofs.StoredCheckpoint
import Storyworld.Files
import Storyworld.Proofs.StoredCard
import Storyworld.Proofs.FiledArchive
import Storyworld.Proofs.Ledger
import Storyworld.Proofs.Requests
import Storyworld.Proofs.BareArchive
import Storyworld.Proofs.Readings
import Storyworld.Proofs.LedgerInFiles
import Storyworld.Proofs.InitialValues
import Storyworld.Proofs.LocationPaths
import Storyworld.Proofs.ItemLines
import Storyworld.Proofs.WrittenBlocks
import Storyworld.Proofs.Ascents
import Storyworld.Proofs.Attendance
import Storyworld.Proofs.Composition
import Storyworld.Proofs.Advance
import Storyworld.Proofs.StoreLaws
import Storyworld.Proofs.Rounding
import Storyworld.Proofs.Complements
import Storyworld.Proofs.IntegerConditions
import Storyworld.Proofs.QuotedLists
import Storyworld.Proofs.WrittenScene
import Storyworld.Proofs.CommandSequences
import Storyworld.Proofs.SlidingWindow
import Storyworld.Proofs.Ladder
import Storyworld.Proofs.MissedPositions
import Storyworld.Proofs.DeclaredValues
import Storyworld.Proofs.Spellings
import Storyworld.Proofs.Slugs
