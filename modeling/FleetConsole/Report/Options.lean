/-! How much of a report is fetched and held at a time. -/
namespace FleetConsole.Report

structure StreamOptions where
  /-- Rows fetched with one query. -/
  pageSize : Nat
  /-- Pieces of output that may wait for the reader. -/
  channelCapacity : Nat
  deriving DecidableEq, Repr

def defaultPageSize : Nat := 200

def defaultChannelCapacity : Nat := 64

def StreamOptions.initial : StreamOptions := ⟨defaultPageSize, defaultChannelCapacity⟩

end FleetConsole.Report
