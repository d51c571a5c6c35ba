import Cascade.Proofs.Agreement
import Cascade.Proofs.Bounds
import Cascade.Proofs.Brackets
import Cascade.Proofs.Carets
import Cascade.Proofs.Chains
import Cascade.Proofs.Composition
import Cascade.Proofs.Decimals
import Cascade.Proofs.Dependence
import Cascade.Proofs.Increments
import Cascade.Proofs.Indentation
import Cascade.Proofs.Limits
import Cascade.Proofs.Literals
import Cascade.Proofs.Locations
import Cascade.Proofs.NormalForms
import Cascade.Proofs.Outlines
import Cascade.Proofs.Precedence
import Cascade.Proofs.Programs
import Cascade.Proofs.Refusals
import Cascade.Proofs.Registrations
import Cascade.Proofs.Search
import Cascade.Proofs.Substitution
import Cascade.Proofs.Unreadable
import Cascade.Proofs.Values
import Cascade.Token.Head
