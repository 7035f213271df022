import RegistryGraph.Store.Snapshot

/-!
# What a tool call works on

A tool call sees one snapshot, the index of its primary source, and possibly the statistics of the
server that runs it.
-/

namespace RegistryGraph

/-- The version of this program. -/
def programVersion : String := "0.3.0"

/-- The revision of the protocol between clients and servers. -/
def protocolVersion : String := "2024-11-05"

/-- What a tool call works on. -/
structure ToolContext where
  snapshot : Snapshot
  index : EntityIndex
  /-- The statistics of the server, for the tool that reports them. -/
  serverStats : Option Json

namespace ToolContext

/-- How the server presents itself. -/
def server (ctx : ToolContext) : ServerInfo := ctx.snapshot.declaration.server

/-- The declared sources. -/
def sources (ctx : ToolContext) : List Source := ctx.snapshot.declaration.sources

/-- The revision of the snapshot. -/
def revision (ctx : ToolContext) : String := ctx.snapshot.revision

end ToolContext

end RegistryGraph
