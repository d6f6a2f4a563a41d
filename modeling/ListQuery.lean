import ListQuery.Builder
import ListQuery.Builder.Session
import ListQuery.Condition.Leaves
import ListQuery.Condition.Truth
import ListQuery.Extraction
import ListQuery.Json.Same
import ListQuery.Proofs.Acceptance
import ListQuery.Proofs.CallOrder
import ListQuery.Proofs.CanonicalDates
import ListQuery.Proofs.CompiledMeaning
import ListQuery.Proofs.DateOrder
import ListQuery.Proofs.DirectTranslation
import ListQuery.Proofs.DroppedFields
import ListQuery.Proofs.ExactIntegers
import ListQuery.Proofs.IsolatedParameters
import ListQuery.Proofs.KeptMeaning
import ListQuery.Proofs.LeadingInteger
import ListQuery.Proofs.OneVerdict
import ListQuery.Proofs.PageCap
import ListQuery.Proofs.PageNumbers
import ListQuery.Proofs.PageTiling
import ListQuery.Proofs.PermittedPaths
import ListQuery.Proofs.RecoveredRequest
import ListQuery.Proofs.RelevantEntries
import ListQuery.Proofs.RepeatedParameters
import ListQuery.Proofs.SecondPass
import ListQuery.Proofs.Sessions
import ListQuery.Proofs.SingleParts
import ListQuery.Proofs.SortedPath
import ListQuery.Proofs.StableCoercion
import ListQuery.Proofs.StoredConfiguration
import ListQuery.Proofs.StoredRequest
import ListQuery.Proofs.Tightening
import ListQuery.Proofs.TwoRoutes
