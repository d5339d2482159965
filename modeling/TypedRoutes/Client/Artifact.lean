import TypedRoutes.Client.Declaration

/-!
# The client module

The whole text that is generated for a contract: a header comment with the version, the imports, the
callbacks of streaming routes if there are any, the contract type, the interface of the client, and
the function that makes one.
-/

set_option autoImplicit false

namespace TypedRoutes.Artifact

/-- The package that the client is built on. -/
def package : String := "@vafast/api-client"

/-- The types that the module imports. -/
def importedTypes (streaming : Bool) : List String :=
  ["ApiResponse", "RequestConfig", "Client", "EdenClient"] ++
    if streaming then ["SSESubscription", "SSESubscribeOptions"] else []

/-- The comment at the top of the module. -/
def header (c : Contract) : List String :=
  ["/**",
    " * Auto-generated API type definitions",
    " * Generated at: " ++ c.generatedAt,
    " * Version: " ++ c.version,
    " *",
    " * Do not edit this file by hand; regenerate it with `api-sync sync`",
    " */",
    ""]

/-- The imports. -/
def imports (streaming : Bool) : List String :=
  ["import type \x7b " ++ ", ".intercalate (importedTypes streaming) ++ " \x7d from '" ++
      package ++ "'",
    "import \x7b eden \x7d from '" ++ package ++ "'",
    ""]

/-- The interface of the callbacks, which only streaming routes need. -/
def callbacks (streaming : Bool) : List String :=
  if streaming then
    ["/** Server-sent event callbacks */",
      "interface SSECallbacks<T> \x7b",
      "  onMessage: (data: T) => void",
      "  onError?: (error: \x7b code: number; message: string \x7d) => void",
      "  onOpen?: () => void",
      "  onClose?: () => void",
      "  onReconnect?: (attempt: number, maxAttempts: number) => void",
      "  onMaxReconnects?: () => void",
      "\x7d",
      ""]
  else []

/-- A declaration with its comment, its opening line and its body; an empty body has no line. -/
def declaration (comment opening body : String) : List String :=
  [comment, opening] ++ (if body.isEmpty then [] else [body]) ++ ["\x7d", ""]

/-- The alias of the client type and the function that makes a client. -/
def factory : List String :=
  ["/** API client type alias inferred from EdenClient */",
    "export type ApiClientType = EdenClient<Api>",
    "",
    "/**",
    " * Create a type-safe API client",
    " *",
    " * @example",
    " * ```typescript",
    " * import \x7b createClient \x7d from '" ++ package ++ "'",
    " * import \x7b createApiClient \x7d from './api.generated'",
    " *",
    " * const client = createClient('/api')",
    " * const api = createApiClient(client)",
    " * const \x7b data, error \x7d = await api.users.get()",
    " * ```",
    " */",
    "export function createApiClient(client: Client): EdenClient<Api> \x7b",
    "  return eden<Api>(client)",
    "\x7d",
    ""]

/-- The lines of the module around the two bodies. -/
def moduleLines (c : Contract) (contractBody clientBody : String) : List String :=
  header c ++ imports c.isStreaming ++ callbacks c.isStreaming ++
    declaration "/** API contract type */" "export type Api = \x7b" contractBody ++
    declaration "/** API client type (full IDE completion) */" "export interface ApiClient \x7b"
      clientBody ++
    factory

/-- The module that is generated for a contract below a mount point. -/
def ofContract (c : Contract) (mount : Option String) : Except UnwritableFault String := do
  let forest := RouteForest.ofRoutes mount c.routes
  let contractBody ← forest.contractType 1
  let clientBody ← forest.clientType 1
  return lines (moduleLines c contractBody clientBody)

end TypedRoutes.Artifact
