import Wilderness.Decimal.Fixed
import Wilderness.Dice.Script
import Wilderness.Dice.Throw.Mean
import Wilderness.Json.Reader
import Wilderness.Main
import Wilderness.Proofs.Tiling
import Wilderness.Proofs.Groups
import Wilderness.Proofs.Lookup
import Wilderness.Proofs.Checked
import Wilderness.Proofs.Encounters
import Wilderness.Proofs.Numerals
import Wilderness.Proofs.WrittenThrows
import Wilderness.Proofs.Rendering
import Wilderness.Proofs.Building
import Wilderness.Proofs.Longer
import Wilderness.Proofs.Draws
import Wilderness.Proofs.Agreement
import Wilderness.Proofs.JsonNumbers
import Wilderness.Proofs.JsonTexts
import Wilderness.Proofs.WholeDoubles
import Wilderness.Proofs.Decoded
import Wilderness.Proofs.Restored
import Wilderness.Proofs.Strict
import Wilderness.Proofs.Guarded
import Wilderness.Proofs.Lines
import Wilderness.Proofs.Selection
import Wilderness.Proofs.Bounds
import Wilderness.Proofs.ExactThrows
import Wilderness.Proofs.GroupTotals
import Wilderness.Proofs.Entourages
import Wilderness.Proofs.Diagnoses
import Wilderness.Proofs.DiceTexts
import Wilderness.Proofs.Refusals
import Wilderness.Proofs.Listings
import Wilderness.Proofs.GroupBounds
import Wilderness.Proofs.Identification
import Wilderness.Proofs.Means
import Wilderness.Proofs.Scripts
