import LicenseSurvey.Main
import LicenseSurvey.Proofs.Comment.Overlap
import LicenseSurvey.Proofs.Comment.WellFormed
import LicenseSurvey.Proofs.Header.RoundTrip
import LicenseSurvey.Proofs.Manifest.RoundTrip
import LicenseSurvey.Proofs.Resolver.Ending
import LicenseSurvey.Proofs.Resolver.Limit
import LicenseSurvey.Proofs.Resolver.Session
import LicenseSurvey.Proofs.Survey.Account
import LicenseSurvey.Proofs.Comment.Concatenation
import LicenseSurvey.Proofs.Comment.Limit
import LicenseSurvey.Proofs.Comment.Order
import LicenseSurvey.Proofs.FileTree.Creation
import LicenseSurvey.Proofs.Survey.Failure
import LicenseSurvey.Proofs.Comment.Decoration
import LicenseSurvey.Proofs.Tag.RoundTrip
import LicenseSurvey.Proofs.Record.Ignoring
import LicenseSurvey.Proofs.Resolver.Placement
import LicenseSurvey.Proofs.Wildcard.Repetition
import LicenseSurvey.Proofs.Manifest.Governing
import LicenseSurvey.Proofs.Manifest.Presence
import LicenseSurvey.Proofs.Resolver.WellFormed
import LicenseSurvey.Proofs.Expression.Tree
import LicenseSurvey.Proofs.Language.Claim
import LicenseSurvey.Proofs.Comment.Token
import LicenseSurvey.Proofs.Resolver.Reading
import LicenseSurvey.Proofs.Text.Position
import LicenseSurvey.Proofs.Tag.Position
import LicenseSurvey.Proofs.Tag.Earliest
