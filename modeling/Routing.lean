import Routing.Live
import Routing.NamedRoute
import Routing.Proofs.Composition
import Routing.Proofs.Generation.Account
import Routing.Proofs.Generation.Escape
import Routing.Proofs.Generation.Fixpoint
import Routing.Proofs.Generation.Forgotten
import Routing.Proofs.Generation.Selected
import Routing.Proofs.Generation.Spelling
import Routing.Proofs.Method
import Routing.Proofs.NamedRoute
import Routing.Proofs.Namespaces.Controllers
import Routing.Proofs.Path.Component
import Routing.Proofs.Route.Admitted
import Routing.Proofs.Route.Compiled
import Routing.Proofs.Recognition.Bound
import Routing.Proofs.Recognition.Longest
import Routing.Proofs.Recognition.Static
import Routing.Proofs.Requirement.Alone
import Routing.Proofs.Requirement.Screening
import Routing.Proofs.Serving
import Routing.Proofs.Table.Index
import Routing.Proofs.Table.Origin
import Routing.Proofs.Route.Tail
import Routing.Proofs.Route.WellFormed
import Routing.Proofs.Template.Optional
import Routing.Proofs.Template.Pattern
