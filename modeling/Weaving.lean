import Weaving.Advice.Observer
import Weaving.Expression.Parser
import Weaving.Proofs.Advice.Discipline
import Weaving.Proofs.Eligibility
import Weaving.Proofs.Expression.Parsing
import Weaving.Proofs.Invocation.Completion
import Weaving.Proofs.Pointcut.Algebra
import Weaving.Proofs.Precedence.Ranks
import Weaving.Proofs.World.Bracketing
import Weaving.Proofs.World.Freezing
import Weaving.Script.Collaborators
import Weaving.Settings
import Weaving.Proofs.Proxy.Exposure
import Weaving.Proofs.Source.Lending
import Weaving.Proofs.Invocation.Observers
import Weaving.Proofs.World.Transparency
import Weaving.Proofs.Invocation.Handing
import Weaving.Proofs.World.SelfReturn
import Weaving.Proofs.Precedence.Extension
import Weaving.Proofs.Precedence.Knots
import Weaving.Proofs.ChainOrder
import Weaving.Proofs.Expression.Approximation
import Weaving.Proofs.Expression.TypePattern
import Weaving.Proofs.Expression.Prefilter
import Weaving.Proofs.Advice.Dispatch
import Weaving.Proofs.Pointcut.Exclusion
import Weaving.Proofs.Pointcut.Operands
import Weaving.Proofs.World.Answering
import Weaving.Proofs.Text.Wildcards
import Weaving.Proofs.Expression.ReturnType
import Weaving.Proofs.Proxy.Backing
import Weaving.Proofs.Proxy.Undoing
import Weaving.Proofs.Text.Spacing
import Weaving.Proofs.Expression.Fields
import Weaving.Proofs.Expression.Parameters
import Weaving.Proofs.Expression.Signature
import Weaving.Proofs.Expression.Positions
import Weaving.Proofs.Pointcut.DeclaringType
import Weaving.Proofs.Hierarchy
