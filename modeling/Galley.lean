import Galley.Main
import Galley.Press.Session
import Galley.Json.Printer
import Galley.Proofs.Atomicity
import Galley.Proofs.ControlWords
import Galley.Proofs.FreshStart
import Galley.Proofs.Isolation
import Galley.Proofs.Partitions
import Galley.Proofs.Braces
import Galley.Proofs.Names
import Galley.Proofs.Marking
import Galley.Proofs.Counting
import Galley.Proofs.Lookup
import Galley.Proofs.Balance
import Galley.Proofs.Cleaning
import Galley.Proofs.Delivery
import Galley.Proofs.ControlSequences
import Galley.Proofs.JsonRecords
import Galley.Proofs.JsonText
import Galley.Proofs.Configuration
import Galley.Proofs.JsonLiterals
import Galley.Proofs.Requirements
import Galley.Proofs.Tables
import Galley.Proofs.Lists
import Galley.Proofs.Calls
import Galley.Proofs.Trimming
import Galley.Proofs.HexColours
import Galley.Proofs.ColourEntries
import Galley.Proofs.Diagnostics
import Galley.Proofs.LossyUtf8
import Galley.Proofs.LogLines
import Galley.Proofs.Acceptance
import Galley.Proofs.FileNames
import Galley.Proofs.Base64
import Galley.Proofs.TextChannel
import Galley.Proofs.Watermarks
import Galley.Proofs.LatestEntries
