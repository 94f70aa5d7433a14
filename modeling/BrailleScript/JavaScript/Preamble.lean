/-!
# The support code of emitted programs

JavaScript that is put in front of every emitted program: it holds the functions that the program
calls where its meaning differs from that of the host language, and the primitives.
-/

namespace BrailleScript.JavaScript

/-- The lines of the support code. -/
def preambleLines : List String :=
  ["\"use strict\";",
   "// cellscript runtime (Node 18+)",
   "",
   "const __ENDPOINT = (process.env.CELLSCRIPT_ENDPOINT || \"https://api.openai.com/v1\").replace(/\\/+$/, \"\");",
   "const __MODEL = process.env.CELLSCRIPT_MODEL || \"gpt-4o-mini\";",
   "const __EMBED_MODEL = process.env.CELLSCRIPT_EMBED_MODEL || \"text-embedding-3-small\";",
   "const __MAX_TOKENS = 256;",
   "",
   "class __Halt extends Error \x7b\x7d",
   "",
   "class __RuntimeError extends Error \x7b",
   "  constructor(kind, message) \x7b",
   "    super(message);",
   "    this.kind = kind;",
   "  \x7d",
   "\x7d",
   "",
   "function __fail(kind, message) \x7b",
   "  throw new __RuntimeError(kind, message);",
   "\x7d",
   "",
   "function __errText(e) \x7b",
   "  if (e instanceof __RuntimeError) return `$\x7be.kind\x7d: $\x7be.message\x7d`;",
   "  if (e instanceof ReferenceError) return `UnboundName: $\x7be.message\x7d`;",
   "  return `TypeMismatch: $\x7be && e.message !== undefined ? e.message : String(e)\x7d`;",
   "\x7d",
   "",
   "function __isClass(f) \x7b",
   "  return typeof f === \"function\" && /^class[\\s\x7b]/.test(Function.prototype.toString.call(f));",
   "\x7d",
   "",
   "function __isMap(v) \x7b",
   "  if (v === null || typeof v !== \"object\" || Array.isArray(v)) return false;",
   "  const proto = Object.getPrototypeOf(v);",
   "  return proto === Object.prototype || proto === null;",
   "\x7d",
   "",
   "function __type(v) \x7b",
   "  if (v === null || v === undefined) return \"null\";",
   "  if (typeof v === \"boolean\") return \"bool\";",
   "  if (typeof v === \"number\") return \"number\";",
   "  if (typeof v === \"string\") return \"string\";",
   "  if (Array.isArray(v)) return \"array\";",
   "  if (__isClass(v)) return \"class\";",
   "  if (typeof v === \"function\") return \"function\";",
   "  if (__isMap(v)) return \"map\";",
   "  return \"instance\";",
   "\x7d",
   "",
   "function __fmtNum(n) \x7b",
   "  if (Number.isNaN(n)) return \"NaN\";",
   "  if (n === Infinity) return \"Infinity\";",
   "  if (n === -Infinity) return \"-Infinity\";",
   "  return String(n);",
   "\x7d",
   "",
   "function __show(v, active = []) \x7b",
   "  switch (__type(v)) \x7b",
   "    case \"null\": return \"null\";",
   "    case \"bool\": return String(v);",
   "    case \"number\": return __fmtNum(v);",
   "    case \"string\": return v;",
   "    case \"class\": return `<class $\x7bv.name\x7d>`;",
   "    case \"function\": return `<fn $\x7bv.name || \"<lambda>\"\x7d>`;",
   "    case \"array\":",
   "    case \"map\": \x7b",
   "      const isArray = Array.isArray(v);",
   "      if (active.includes(v)) return isArray ? \"[...]\" : \"\x7b...\x7d\";",
   "      active.push(v);",
   "      const text = isArray",
   "        ? \"[\" + v.map((x) => __show(x, active)).join(\", \") + \"]\"",
   "        : \"\x7b\" + Object.keys(v).sort().map((k) => `$\x7bk\x7d: $\x7b__show(v[k], active)\x7d`).join(\", \") + \"\x7d\";",
   "      active.pop();",
   "      return text;",
   "    \x7d",
   "    default: return `<$\x7bv.constructor.name\x7d instance>`;",
   "  \x7d",
   "\x7d",
   "",
   "function __truthy(v) \x7b",
   "  switch (__type(v)) \x7b",
   "    case \"null\": return false;",
   "    case \"bool\": return v;",
   "    case \"number\": return v !== 0;",
   "    case \"string\": return v.length > 0;",
   "    case \"array\": return v.length > 0;",
   "    case \"map\": return Object.keys(v).length > 0;",
   "    default: return true;",
   "  \x7d",
   "\x7d",
   "",
   "function __eq(a, b, active = []) \x7b",
   "  const ta = __type(a);",
   "  if (ta !== __type(b)) return false;",
   "  if (ta === \"null\") return true;",
   "  if ((ta !== \"array\" && ta !== \"map\") || a === b) return a === b;",
   "  if (active.some(([x, y]) => x === a && y === b)) \x7b",
   "    __fail(\"TypeMismatch\", \"cannot compare a value that contains itself\");",
   "  \x7d",
   "  active.push([a, b]);",
   "  let same;",
   "  if (ta === \"array\") \x7b",
   "    same = a.length === b.length && a.every((x, i) => __eq(x, b[i], active));",
   "  \x7d else \x7b",
   "    const ka = Object.keys(a).sort();",
   "    const kb = Object.keys(b).sort();",
   "    same = ka.length === kb.length && ka.every((k, i) => k === kb[i] && __eq(a[k], b[k], active));",
   "  \x7d",
   "  active.pop();",
   "  return same;",
   "\x7d",
   "",
   "function __num2(op, a, b) \x7b",
   "  if (typeof a !== \"number\" || typeof b !== \"number\") \x7b",
   "    __fail(\"TypeMismatch\", `'$\x7bop\x7d' on $\x7b__type(a)\x7d and $\x7b__type(b)\x7d`);",
   "  \x7d",
   "\x7d",
   "",
   "function __add(a, b) \x7b",
   "  if (typeof a === \"number\" && typeof b === \"number\") return a + b;",
   "  if (typeof a === \"string\" || typeof b === \"string\") return __show(a) + __show(b);",
   "  return __fail(\"TypeMismatch\", `'+' on $\x7b__type(a)\x7d and $\x7b__type(b)\x7d`);",
   "\x7d",
   "",
   "function __div(a, b) \x7b",
   "  if (b === 0) __fail(\"DivisionByZero\", \"division by zero\");",
   "  __num2(\"/\", a, b);",
   "  return a / b;",
   "\x7d",
   "",
   "function __mod(a, b) \x7b",
   "  if (b === 0) __fail(\"DivisionByZero\", \"division by zero\");",
   "  __num2(\"%\", a, b);",
   "  return a % b;",
   "\x7d",
   "",
   "function __key(k) \x7b",
   "  return typeof k === \"string\" ? k : __show(k);",
   "\x7d",
   "",
   "function __setIndex(o, k, v) \x7b",
   "  const t = __type(o);",
   "  if (t === \"array\" && typeof k === \"number\") \x7b",
   "    if (!Number.isInteger(k) || k < 0 || k >= o.length) \x7b",
   "      __fail(\"TypeMismatch\", `index $\x7b__fmtNum(k)\x7d out of range for array of length $\x7bo.length\x7d`);",
   "    \x7d",
   "    o[k] = v;",
   "    return v;",
   "  \x7d",
   "  if (t === \"map\") \x7b",
   "    o[__key(k)] = v;",
   "    return v;",
   "  \x7d",
   "  return __fail(\"TypeMismatch\", `cannot index-assign $\x7bt\x7d with $\x7b__type(k)\x7d`);",
   "\x7d",
   "",
   "function __iter(v) \x7b",
   "  switch (__type(v)) \x7b",
   "    case \"array\": return v.slice();",
   "    case \"map\": return Object.keys(v).sort().map((k) => [k, v[k]]);",
   "    case \"string\": return Array.from(v);",
   "    default: return [];",
   "  \x7d",
   "\x7d",
   "",
   "async function __call(f, args) \x7b",
   "  if (__isClass(f)) \x7b",
   "    const o = new f();",
   "    if (typeof o.init === \"function\") await o.init(...args);",
   "    return o;",
   "  \x7d",
   "  if (typeof f !== \"function\") __fail(\"TypeMismatch\", `$\x7b__type(f)\x7d is not callable`);",
   "  const r = await f(...args);",
   "  return r === undefined ? null : r;",
   "\x7d",
   "",
   "async function __callm(o, name, args) \x7b",
   "  if (o === null || o === undefined) __fail(\"TypeMismatch\", `null has no member '$\x7bname\x7d'`);",
   "  const f = o[name];",
   "  if (__isClass(f)) return __call(f, args);",
   "  if (typeof f !== \"function\") __fail(\"TypeMismatch\", `$\x7b__type(f)\x7d is not callable`);",
   "  const r = await f.apply(o, args);",
   "  return r === undefined ? null : r;",
   "\x7d",
   "",
   "function __print(...values) \x7b",
   "  console.log(values.map((v) => __show(v)).join(\" \"));",
   "\x7d",
   "",
   "// ---------- built-ins ----------",
   "",
   "function __builtinArity(name, n, args) \x7b",
   "  if (args.length !== n) __fail(\"TypeMismatch\", `builtin \\`$\x7bname\x7d\\` expected $\x7bn\x7d args, got $\x7bargs.length\x7d`);",
   "\x7d",
   "",
   "const len = (...a) => \x7b",
   "  __builtinArity(\"len\", 1, a);",
   "  const v = a[0];",
   "  switch (__type(v)) \x7b",
   "    case \"string\": return Array.from(v).length;",
   "    case \"array\": return v.length;",
   "    case \"map\": return Object.keys(v).length;",
   "    default: return __fail(\"TypeMismatch\", `len expects a string, array or map, got $\x7b__type(v)\x7d`);",
   "  \x7d",
   "\x7d;",
   "const str = (...a) => (__builtinArity(\"str\", 1, a), __show(a[0]));",
   "const num = (...a) => \x7b",
   "  __builtinArity(\"num\", 1, a);",
   "  const v = a[0];",
   "  switch (__type(v)) \x7b",
   "    case \"number\": return v;",
   "    case \"bool\": return v ? 1 : 0;",
   "    case \"null\": return 0;",
   "    case \"string\": \x7b",
   "      const n = Number(v.trim());",
   "      if (v.trim() === \"\" || Number.isNaN(n)) __fail(\"TypeMismatch\", `cannot convert $\x7bJSON.stringify(v)\x7d to a number`);",
   "      return n;",
   "    \x7d",
   "    default: return __fail(\"TypeMismatch\", `cannot convert $\x7b__type(v)\x7d to a number`);",
   "  \x7d",
   "\x7d;",
   "const type = (...a) => (__builtinArity(\"type\", 1, a), __type(a[0]));",
   "const push = (...a) => \x7b",
   "  __builtinArity(\"push\", 2, a);",
   "  if (!Array.isArray(a[0])) __fail(\"TypeMismatch\", `push expects an array, got $\x7b__type(a[0])\x7d`);",
   "  return a[0].push(a[1]);",
   "\x7d;",
   "const keys = (...a) => \x7b",
   "  __builtinArity(\"keys\", 1, a);",
   "  const t = __type(a[0]);",
   "  if (t !== \"map\" && t !== \"instance\") __fail(\"TypeMismatch\", `keys expects a map, got $\x7bt\x7d`);",
   "  return Object.keys(a[0]).sort();",
   "\x7d;",
   "const __MAX_RANGE_LEN = 1000000;",
   "const range = (...a) => \x7b",
   "  if (a.length < 1 || a.length > 2) __fail(\"TypeMismatch\", \"range expects 1 or 2 arguments\");",
   "  const [start, end] = (a.length === 1 ? [0, a[0]] : a).map((n) => \x7b",
   "    if (typeof n !== \"number\") __fail(\"TypeMismatch\", `range expects a number, got $\x7b__type(n)\x7d`);",
   "    if (!Number.isInteger(n) || Math.abs(n) > 2 ** 53) \x7b",
   "      __fail(\"TypeMismatch\", `range expects safe integer bounds, got $\x7b__fmtNum(n)\x7d`);",
   "    \x7d",
   "    return n;",
   "  \x7d);",
   "  const len = Math.max(end - start, 0);",
   "  if (len > __MAX_RANGE_LEN) \x7b",
   "    __fail(\"TypeMismatch\", `range of $\x7blen\x7d elements exceeds the limit of $\x7b__MAX_RANGE_LEN\x7d`);",
   "  \x7d",
   "  return Array.from(\x7b length: len \x7d, (_, i) => start + i);",
   "\x7d;",
   "const boundary = () => null;",
   "",
   "const __modules = \x7b",
   "  math: \x7b",
   "    sqrt: Math.sqrt, floor: Math.floor, ceil: Math.ceil, abs: Math.abs, pow: Math.pow,",
   "    min: (...xs) => Math.min(...xs), max: (...xs) => Math.max(...xs), pi: Math.PI,",
   "  \x7d,",
   "  text: \x7b",
   "    upper: (s) => s.toUpperCase(),",
   "    lower: (s) => s.toLowerCase(),",
   "    trim: (s) => s.trim(),",
   "    split: (s, sep) => (sep === \"\" ? Array.from(s) : s.split(sep)),",
   "    join: (xs, sep) => xs.map((x) => __show(x)).join(sep),",
   "    contains: (s, t) => s.includes(t),",
   "  \x7d,",
   "\x7d;",
   "",
   "function __module(name) \x7b",
   "  if (!Object.prototype.hasOwnProperty.call(__modules, name)) __fail(\"UnboundName\", `no module named '$\x7bname\x7d'`);",
   "  return __modules[name];",
   "\x7d",
   "",
   "// ---------- AI primitives ----------",
   "",
   "async function __post(path, body) \x7b",
   "  const key = process.env.CELLSCRIPT_API_KEY;",
   "  if (!key) __fail(\"PrimitiveExecution\", \"CELLSCRIPT_API_KEY not set in environment\");",
   "  const res = await fetch(`$\x7b__ENDPOINT\x7d/$\x7bpath\x7d`, \x7b",
   "    method: \"POST\",",
   "    headers: \x7b \"Content-Type\": \"application/json\", Authorization: `Bearer $\x7bkey\x7d` \x7d,",
   "    body: JSON.stringify(body),",
   "  \x7d);",
   "  if (!res.ok) __fail(\"PrimitiveExecution\", `backend http error $\x7bres.status\x7d: $\x7bawait res.text()\x7d`);",
   "  return res.json();",
   "\x7d",
   "",
   "function __cosine(a, b) \x7b",
   "  let dot = 0, na = 0, nb = 0;",
   "  for (let i = 0; i < Math.min(a.length, b.length); i++) dot += a[i] * b[i];",
   "  for (const x of a) na += x * x;",
   "  for (const x of b) nb += x * x;",
   "  return na === 0 || nb === 0 ? 0 : dot / (Math.sqrt(na) * Math.sqrt(nb));",
   "\x7d",
   "",
   "const __prim = \x7b",
   "  async infer(prompt, model, maxTokens) \x7b",
   "    const body = \x7b",
   "      model: typeof model === \"string\" ? model : __MODEL,",
   "      messages: [\x7b role: \"user\", content: __show(prompt).trim() \x7d],",
   "      max_tokens: typeof maxTokens === \"number\" && maxTokens >= 1 ? Math.floor(maxTokens) : __MAX_TOKENS,",
   "    \x7d;",
   "    const r = await __post(\"chat/completions\", body);",
   "    const c = r.choices && r.choices[0];",
   "    if (!c) __fail(\"PrimitiveExecution\", \"infer failed: empty response\");",
   "    return c.message.content.trim();",
   "  \x7d,",
   "  async embed(text) \x7b",
   "    const r = await __post(\"embeddings\", \x7b model: __EMBED_MODEL, input: __show(text) \x7d);",
   "    if (!r.data || !r.data[0]) __fail(\"PrimitiveExecution\", \"embed failed: empty embedding response\");",
   "    return r.data[0].embedding;",
   "  \x7d,",
   "  async promptTemplate(template, vars) \x7b",
   "    const t = __show(template);",
   "    const v = vars === undefined ? null : vars;",
   "    const vt = __type(v);",
   "    if (vt !== \"map\" && vt !== \"instance\" && vt !== \"null\") \x7b",
   "      __fail(\"TypeMismatch\", `prompt expects a map of variables, got $\x7bvt\x7d`);",
   "    \x7d",
   "    return t.replace(/\\\x7b([^\x7b\x7d]*)\\\x7d/g, (m, k) =>",
   "      v !== null && Object.prototype.hasOwnProperty.call(v, k) ? __show(v[k]) : m);",
   "  \x7d,",
   "  async pipeCompose(seed, ...stages) \x7b",
   "    let acc = seed === undefined ? null : seed;",
   "    for (const s of stages) acc = await __call(s, [acc]);",
   "    return acc;",
   "  \x7d,",
   "  async reflectExec() \x7b",
   "    return __fail(\"PrimitiveExecution\", \"reflect of a computed source is not supported in compiled programs\");",
   "  \x7d,",
   "  async semanticSearch(query, docs, k) \x7b",
   "    if (docs !== undefined && docs !== null && !Array.isArray(docs)) \x7b",
   "      __fail(\"TypeMismatch\", `search expects an array of documents, got $\x7b__type(docs)\x7d`);",
   "    \x7d",
   "    const list = docs || [];",
   "    const take = typeof k === \"number\" && k >= 0 ? Math.floor(k) : 3;",
   "    const q = await __prim.embed(query);",
   "    const scored = [];",
   "    for (let i = 0; i < list.length; i++) \x7b",
   "      scored.push([__cosine(q, await __prim.embed(list[i])), i]);",
   "    \x7d",
   "    scored.sort((a, b) => b[0] - a[0] || a[1] - b[1]);",
   "    return scored.slice(0, take).map(([, i]) => list[i]);",
   "  \x7d,",
   "\x7d;",
   "",
   "function __main(body) \x7b",
   "  body().catch((e) => \x7b",
   "    if (e instanceof __Halt) return;",
   "    console.error(__errText(e));",
   "    process.exitCode = 1;",
   "  \x7d);",
   "\x7d"]

/-- The support code, each line ended by a line feed. -/
def preamble : String :=
  String.join (preambleLines.map (· ++ "\n"))

end BrailleScript.JavaScript
