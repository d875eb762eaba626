import Lineup.Proofs.Distinct
import Lineup.Proofs.History
import Lineup.Proofs.Json.RoundTrip
import Lineup.Proofs.Roster.Outline
import Lineup.Proofs.Roster.Relations
import Lineup.Proofs.Rule.Comparisons
import Lineup.Proofs.Rule.Deletion
import Lineup.Proofs.Rule.Displaced
import Lineup.Proofs.Rule.ErrorPrefixes
import Lineup.Proofs.Rule.Errors
import Lineup.Proofs.Rule.Extension
import Lineup.Proofs.Rule.Footprint
import Lineup.Proofs.Rule.Orderings
import Lineup.Proofs.Rule.Pinning
import Lineup.Proofs.Rule.Respelling
import Lineup.Proofs.Rule.Sides
import Lineup.Proofs.Rule.Validity
import Lineup.Proofs.RuleText.Alternatives
import Lineup.Proofs.Value.Text
