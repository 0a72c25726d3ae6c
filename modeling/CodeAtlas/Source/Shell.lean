import CodeAtlas.Analyzer
import CodeAtlas.Scan

/-!
# Shell scripts

Commands that listen on a port are endpoints; the tables of rules find the side effects of commands
and the settings of variables.
-/

namespace CodeAtlas.Source.Shell

/-- The commands that listen on a port, each with the name of its tool. -/
def listeners : List (Pattern × String) := [
  (.ofString
    r"\b(?:nc|ncat|netcat)\s+(?:-[a-zA-Z]*l[a-zA-Z]*\s+)(?:-[a-zA-Z]+\s+)*(?:-p\s+)?(?P<port>\d+)",
      "netcat"),
  (.ofString r"\bsocat\s+(?:-\S+\s+)*TCP(?:4|6)?-LISTEN:(?P<port>\d+)", "socat"),
  (.ofString r"\bpython3?\s+-m\s+http\.server(?:\s+(?P<port>\d+))?", "http_server")]

/-- The endpoints of a file, tool by tool. -/
def fileEndpoints (r : Repository) (f : SourceFile) : List Endpoint :=
  listeners.flatMap fun (pattern, tool) => (f.find pattern).map fun (line, m) =>
    let port := (m.capture? "port").getD "8000"
    { r.endpoint f line "LISTEN" (":" ++ port) with decorators := [tool] }

/-- Whether an endpoint may stand in front of another one. -/
def inOrder (a b : Endpoint) : Bool := a.file < b.file || (a.file == b.file && a.line ≤ b.line)

/-- The rules for side effects. -/
def effects : List EffectRule := effectRules [
  (r"\baws\s+(?:--\S+\s+)*(?P<target>s3|s3api)\s+(?P<op>[\w-]+)", .cloudService, "aws", ""),
  (r"\baws\s+(?:--\S+\s+)*(?P<target>dynamodb)\s+(?P<op>[\w-]+)", .database, "aws", ""),
  (r"\baws\s+(?:--\S+\s+)*(?P<target>sqs)\s+(?P<op>[\w-]+)", .queue, "aws", ""),
  (r"\baws\s+(?:--\S+\s+)*(?P<target>sns)\s+(?P<op>[\w-]+)", .notification, "aws", ""),
  (r"\baws\s+(?:--\S+\s+)*(?P<target>lambda|ec2|ecs|eks|cloudformation|ssm|secretsmanager|route53|iam|logs)\s+(?P<op>[\w-]+)",
    .cloudService, "aws", ""),
  (r"\bgcloud\s+(?P<target>[\w-]+)\s+(?P<op>[\w-]+)", .cloudService, "gcloud", ""),
  (r"\bgsutil\s+(?P<op>cp|rm|mv|rsync|ls)\b", .cloudService, "gsutil", "gcs"),
  (r"\baz\s+(?P<target>storage|vm|functionapp|webapp|aks)\s+(?P<op>[\w-]+)",
    .cloudService, "az", ""),
  (r"\bdocker(?:-compose|\s+compose)?\s+(?P<op>run|build|push|pull|exec|up|down|start|stop|rm)\b",
    .externalApi, "docker", "docker"),
  (r"\bkubectl\s+(?:-\S+\s+)*(?P<op>apply|delete|create|rollout|scale|exec|set|patch)\b",
    .cloudService, "kubectl", "kubernetes"),
  (r"\bhelm\s+(?P<op>install|upgrade|uninstall|rollback|template)\b", .cloudService,
    "helm", "helm"),
  (r#"\b(?P<op>curl|wget)\b(?:[^\n|;]*?(?P<target>https?://[^\s"'|;)]+))?"#, .http, "request", ""),
  (r"\b(?P<op>psql|pg_dump|pg_restore|mysql|mysqldump|sqlite3|mongosh|mongo)\s",
    .database, "client", ""),
  (r"(?i)\bredis-cli\b(?:[^\n|;]*?\s(?P<op>GET|SET|DEL|FLUSHALL|FLUSHDB|KEYS|HSET|HGET|PUBLISH|INCR|EXPIRE)\b)?",
    .cache, "redis_cli", "redis"),
  (r"(?m)(?:^|[|;&])\s*(?P<op>mail|mailx|sendmail)\s", .email, "mail", ""),
  (r"(?:>>?|\btee\s+(?:-a\s+)?)\s*(?P<target>/(?:var|etc|tmp|opt|srv|home|data|mnt|usr/local)/[^\s;|&)]+)",
    .file, "write", ""),
  (r"\b(?P<op>rsync|scp)\s", .file, "copy", "")]

/-- The rules for settings. A constant has a literal value. -/
def variableRules : List SettingRule := settingRules [
  (r"\$\x7b(?P<key>[A-Za-z_]\w*):\?[^\x7d]*\x7d", "env"),
  (r"\$\x7b(?P<key>[A-Za-z_]\w*):?[-=](?P<default>[^\x7d]*)\x7d", "env"),
  (r"(?m)^\s*export\s+(?P<key>[A-Za-z_]\w*)=(?P<default>\S*)", "export"),
  (r#"(?m)^(?:readonly\s+|declare\s+-r\s+)?(?P<key>[A-Z_][A-Z0-9_]*)=(?P<default>"[^"$]*"|'[^']*'|[^\s;"'$`][^\s;]*)(?:[ \t;]|$)"#,
    "constant")]

/-- Analyzes shell scripts. -/
def analyzer : Analyzer where
  language := "bash"
  extensions := ["sh", "bash"]
  extract r :=
    let files := r.examined ["sh", "bash"]
    { models := .ok []
      endpoints := .ok ((files.flatMap (fileEndpoints r)).mergeSort inOrder)
      sideEffects := .ok (scanAllEffects r effects files)
      settings := .ok (scanAllSettings r variableRules files) }

end CodeAtlas.Source.Shell
