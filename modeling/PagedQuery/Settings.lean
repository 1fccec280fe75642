import PagedQuery.Query.Plan
import PagedQuery.Request.Reader
import PagedQuery.Task.Registry
import PagedQuery.Yaml.Reader

/-!
# Settings

Every setting has a default, so that an empty document is one of settings.

* `CompileOptions.ofJson?`, `CompileOptions.ofYaml?`, `EngineConfig.ofYaml?`: parts of them;
* `Settings`, `Settings.read?`: all of them, and the document that writes them.
-/

namespace PagedQuery

namespace CompileOptions

def ofJson? (value : Json) : Option CompileOptions := do
  let r ← Json.Record.of? [["dialect"], ["max_alias_length"]] value
  some {
    dialect := ← r.orDefault? "dialect" default.dialect fun dialect =>
      (dialect.choice? Json.isNull).bind Dialect.ofName?
    maxAliasLength :=
      ← r.orDefault? "max_alias_length" default.maxAliasLength Json.natural? }

def ofYaml? (value : Yaml) : Option CompileOptions := do
  let r ← value.record? ["dialect", "max_alias_length"]
  some {
    dialect := ← r.orDefault? "dialect" default.dialect fun dialect =>
      dialect.choice?.bind Dialect.ofName?
    maxAliasLength :=
      ← r.orDefault? "max_alias_length" default.maxAliasLength Yaml.natural? }

end CompileOptions

namespace Task.EngineConfig

def ofYaml? (value : Yaml) : Option EngineConfig := do
  let r ← value.record?
    ["reaper_interval_ms", "idle_timeout_ms", "default_fetch_size", "default_fetch_timeout_ms"]
  some {
    reaperInterval :=
      ← r.orDefault? "reaper_interval_ms" default.reaperInterval Yaml.natural?
    idleTimeout := ← r.orDefault? "idle_timeout_ms" default.idleTimeout Yaml.natural?
    defaultFetchSize :=
      ← r.orDefault? "default_fetch_size" default.defaultFetchSize Yaml.natural?
    defaultFetchTimeout :=
      ← r.orDefault? "default_fetch_timeout_ms" default.defaultFetchTimeout Yaml.natural? }

end Task.EngineConfig

structure Settings where
  compile : CompileOptions
  engine : Task.EngineConfig

namespace Settings

def default : Settings :=
  { compile := CompileOptions.default, engine := Task.EngineConfig.default }

def ofYaml? (value : Yaml) : Option Settings := do
  let r ← value.record? ["compiler", "engine"]
  some {
    compile := ← r.orDefault? "compiler" default.compile CompileOptions.ofYaml?
    engine := ← r.orDefault? "engine" default.engine Task.EngineConfig.ofYaml? }

/-- The settings that a YAML text writes. White space of any kind writes the defaults. -/
def read? (text : String) : Option Settings :=
  if Text.isBlankText text then some default else (Yaml.read? text).bind ofYaml?

end Settings

end PagedQuery
