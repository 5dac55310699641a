import ClientGen.Source.Comment
import ClientGen.Source.Literal

/-!
# The run-time module

Every client comes with the same run-time module: the configuration, the class that all clients
extend, the errors, and the types and wrappers of requests and responses. Only its first lines
depend on the document.
-/

namespace ClientGen.Package

/-- A group of declarations of the run-time module: the names it exports and its lines. -/
structure RuntimeItem where
  exports : List String
  lines : List String
deriving DecidableEq, Repr

namespace RuntimeItem

/-- What a configuration is made from. -/
def configurationParameters : RuntimeItem where
  exports := ["ConfigurationParameters"]
  lines := [
    "export interface ConfigurationParameters \x7b",
    "  basePath?: string;",
    "  fetchApi?: FetchAPI;",
    "  middleware?: Middleware[];",
    "  queryParamsStringify?: (params: HTTPQuery) => string;",
    "  username?: string;",
    "  password?: string;",
    "  apiKey?: string | Promise<string> | ((name: string) => string | Promise<string>);",
    "  accessToken?: string | Promise<string> | ((name?: string, scopes?: string[]) => string | Promise<string>);",
    "  headers?: HTTPHeaders;",
    "  credentials?: RequestCredentials;",
    "\x7d"]

/-- The settings that all clients of a program share. -/
def configuration : RuntimeItem where
  exports := ["Configuration"]
  lines := [
    "export class Configuration \x7b",
    "  constructor(private configuration: ConfigurationParameters = \x7b\x7d) \x7b\x7d",
    "",
    "  set config(configuration: Configuration) \x7b",
    "    this.configuration = configuration.configuration;",
    "  \x7d",
    "",
    "  get basePath(): string \x7b",
    "    return this.configuration.basePath != null ? this.configuration.basePath : BASE_PATH;",
    "  \x7d",
    "",
    "  get fetchApi(): FetchAPI | undefined \x7b",
    "    return this.configuration.fetchApi;",
    "  \x7d",
    "",
    "  get middleware(): Middleware[] \x7b",
    "    return this.configuration.middleware || [];",
    "  \x7d",
    "",
    "  get queryParamsStringify(): (params: HTTPQuery) => string \x7b",
    "    return this.configuration.queryParamsStringify || querystring;",
    "  \x7d",
    "",
    "  get username(): string | undefined \x7b",
    "    return this.configuration.username;",
    "  \x7d",
    "",
    "  get password(): string | undefined \x7b",
    "    return this.configuration.password;",
    "  \x7d",
    "",
    "  get apiKey(): ((name: string) => string | Promise<string>) | undefined \x7b",
    "    const apiKey = this.configuration.apiKey;",
    "    if (apiKey) \x7b",
    "      return typeof apiKey === 'function' ? apiKey : () => apiKey;",
    "    \x7d",
    "    return undefined;",
    "  \x7d",
    "",
    "  get accessToken(): ((name?: string, scopes?: string[]) => string | Promise<string>) | undefined \x7b",
    "    const accessToken = this.configuration.accessToken;",
    "    if (accessToken) \x7b",
    "      return typeof accessToken === 'function' ? accessToken : async () => accessToken;",
    "    \x7d",
    "    return undefined;",
    "  \x7d",
    "",
    "  get headers(): HTTPHeaders | undefined \x7b",
    "    return this.configuration.headers;",
    "  \x7d",
    "",
    "  get credentials(): RequestCredentials | undefined \x7b",
    "    return this.configuration.credentials;",
    "  \x7d",
    "\x7d"]

/-- The configuration of clients that are given none. -/
def defaultConfig : RuntimeItem where
  exports := ["DefaultConfig"]
  lines := [
    "export const DefaultConfig = new Configuration();"]

/-- The class that all clients extend; it sends requests and runs the middleware. -/
def baseApi : RuntimeItem where
  exports := ["BaseAPI"]
  lines := [
    "export class BaseAPI \x7b",
    "  private middleware: Middleware[];",
    "",
    "  constructor(protected configuration = DefaultConfig) \x7b",
    "    this.middleware = configuration.middleware;",
    "  \x7d",
    "",
    "  withMiddleware<T extends BaseAPI>(this: T, ...middlewares: Middleware[]): T \x7b",
    "    const next = this.clone<T>();",
    "    next.middleware = next.middleware.concat(...middlewares);",
    "    return next;",
    "  \x7d",
    "",
    "  withPreMiddleware<T extends BaseAPI>(this: T, ...preMiddlewares: Array<Middleware['pre']>): T \x7b",
    "    const middlewares = preMiddlewares.map((pre) => (\x7b pre \x7d));",
    "    return this.withMiddleware<T>(...middlewares);",
    "  \x7d",
    "",
    "  withPostMiddleware<T extends BaseAPI>(this: T, ...postMiddlewares: Array<Middleware['post']>): T \x7b",
    "    const middlewares = postMiddlewares.map((post) => (\x7b post \x7d));",
    "    return this.withMiddleware<T>(...middlewares);",
    "  \x7d",
    "",
    "  protected async request(context: RequestOpts, initOverrides?: RequestInit | InitOverrideFunction): Promise<Response> \x7b",
    "    const \x7b url, init \x7d = await this.createFetchParams(context, initOverrides);",
    "    const response = await this.fetchApi(url, init);",
    "    if (response && response.status >= 200 && response.status < 300) \x7b",
    "      return response;",
    "    \x7d",
    "    throw new ResponseError(response, 'Response returned an error code');",
    "  \x7d",
    "",
    "  private async createFetchParams(context: RequestOpts, initOverrides?: RequestInit | InitOverrideFunction) \x7b",
    "    let url = this.configuration.basePath + context.path;",
    "    if (context.query !== undefined && Object.keys(context.query).length !== 0) \x7b",
    "      url += '?' + this.configuration.queryParamsStringify(context.query);",
    "    \x7d",
    "",
    "    const headers = Object.assign(\x7b\x7d, this.configuration.headers, context.headers);",
    "    Object.keys(headers).forEach((key) => (headers[key] === undefined ? delete headers[key] : \x7b\x7d));",
    "",
    "    const initOverrideFn = typeof initOverrides === 'function' ? initOverrides : async () => initOverrides;",
    "",
    "    const initParams = \x7b",
    "      method: context.method,",
    "      headers,",
    "      body: context.body,",
    "      credentials: this.configuration.credentials,",
    "    \x7d;",
    "",
    "    const overriddenInit: RequestInit = \x7b",
    "      ...initParams,",
    "      ...(await initOverrideFn(\x7b init: initParams, context \x7d)),",
    "    \x7d;",
    "",
    "    return \x7b url, init: overriddenInit \x7d;",
    "  \x7d",
    "",
    "  private fetchApi = async (url: string, init: RequestInit): Promise<Response> => \x7b",
    "    let fetchParams = \x7b url, init \x7d;",
    "    for (const middleware of this.middleware) \x7b",
    "      if (middleware.pre) \x7b",
    "        fetchParams = (await middleware.pre(\x7b fetch: this.fetchApi, ...fetchParams \x7d)) || fetchParams;",
    "      \x7d",
    "    \x7d",
    "",
    "    let response: Response | undefined = undefined;",
    "    try \x7b",
    "      response = await (this.configuration.fetchApi || fetch)(fetchParams.url, fetchParams.init);",
    "    \x7d catch (e) \x7b",
    "      for (const middleware of this.middleware) \x7b",
    "        if (middleware.onError) \x7b",
    "          response =",
    "            (await middleware.onError(\x7b",
    "              fetch: this.fetchApi,",
    "              url: fetchParams.url,",
    "              init: fetchParams.init,",
    "              error: e,",
    "              response: response ? response.clone() : undefined,",
    "            \x7d)) || response;",
    "        \x7d",
    "      \x7d",
    "      if (response === undefined) \x7b",
    "        if (e instanceof Error) \x7b",
    "          throw new FetchError(e, 'The request failed and the interceptors did not return an alternative response');",
    "        \x7d",
    "        throw e;",
    "      \x7d",
    "    \x7d",
    "",
    "    for (const middleware of this.middleware) \x7b",
    "      if (middleware.post) \x7b",
    "        response =",
    "          (await middleware.post(\x7b",
    "            fetch: this.fetchApi,",
    "            url: fetchParams.url,",
    "            init: fetchParams.init,",
    "            response: response.clone(),",
    "          \x7d)) || response;",
    "      \x7d",
    "    \x7d",
    "    return response;",
    "  \x7d;",
    "",
    "  private clone<T extends BaseAPI>(this: T): T \x7b",
    "    const constructor = this.constructor as any;",
    "    const next = new constructor(this.configuration);",
    "    next.middleware = this.middleware.slice();",
    "    return next;",
    "  \x7d",
    "\x7d"]

/-- The error for a response that is no success. -/
def responseError : RuntimeItem where
  exports := ["ResponseError"]
  lines := [
    "export class ResponseError extends Error \x7b",
    "  override name: 'ResponseError' = 'ResponseError';",
    "",
    "  constructor(public response: Response, msg?: string) \x7b",
    "    super(msg);",
    "  \x7d",
    "\x7d"]

/-- The error for a request that was not answered. -/
def fetchError : RuntimeItem where
  exports := ["FetchError"]
  lines := [
    "export class FetchError extends Error \x7b",
    "  override name: 'FetchError' = 'FetchError';",
    "",
    "  constructor(public cause: Error, msg?: string) \x7b",
    "    super(msg);",
    "  \x7d",
    "\x7d"]

/-- The error for a parameter that is missing. -/
def requiredError : RuntimeItem where
  exports := ["RequiredError"]
  lines := [
    "export class RequiredError extends Error \x7b",
    "  override name: 'RequiredError' = 'RequiredError';",
    "",
    "  constructor(public field: string, msg?: string) \x7b",
    "    super(msg);",
    "  \x7d",
    "\x7d"]

/-- The marks between the items of a list in a query. -/
def collectionFormats : RuntimeItem where
  exports := ["COLLECTION_FORMATS"]
  lines := [
    "export const COLLECTION_FORMATS = \x7b",
    "  csv: ',',",
    "  ssv: ' ',",
    "  tsv: '\\t',",
    "  pipes: '|',",
    "\x7d;"]

/-- The type of the function that sends requests. -/
def fetchApi : RuntimeItem where
  exports := ["FetchAPI"]
  lines := [
    "export type FetchAPI = WindowOrWorkerGlobalScope['fetch'];"]

/-- The types of the parts of a request. -/
def requestTypes : RuntimeItem where
  exports := ["Json", "HTTPMethod", "HTTPHeaders", "HTTPQuery", "HTTPBody", "HTTPRequestInit", "ModelPropertyNaming"]
  lines := [
    "export type Json = any;",
    "export type HTTPMethod = 'GET' | 'POST' | 'PUT' | 'PATCH' | 'DELETE' | 'OPTIONS' | 'HEAD' | 'TRACE';",
    "export type HTTPHeaders = \x7b [key: string]: string \x7d;",
    "export type HTTPQuery = \x7b",
    "  [key: string]: string | number | null | boolean | Array<string | number | null | boolean> | Set<string | number | null | boolean> | HTTPQuery;",
    "\x7d;",
    "export type HTTPBody = Json | FormData | URLSearchParams;",
    "export type HTTPRequestInit = \x7b",
    "  headers?: HTTPHeaders;",
    "  method: HTTPMethod;",
    "  credentials?: RequestCredentials;",
    "  body?: HTTPBody;",
    "\x7d;",
    "export type ModelPropertyNaming = 'camelCase' | 'snake_case' | 'PascalCase' | 'original';"]

/-- The type of functions that change a request before it is sent. -/
def initOverrideFunction : RuntimeItem where
  exports := ["InitOverrideFunction"]
  lines := [
    "export type InitOverrideFunction = (requestContext: \x7b",
    "  init: HTTPRequestInit;",
    "  context: RequestOpts;",
    "\x7d) => Promise<RequestInit>;"]

/-- A request as it is sent. -/
def fetchParams : RuntimeItem where
  exports := ["FetchParams"]
  lines := [
    "export interface FetchParams \x7b",
    "  url: string;",
    "  init: RequestInit;",
    "\x7d"]

/-- A request as a client makes it. -/
def requestOpts : RuntimeItem where
  exports := ["RequestOpts"]
  lines := [
    "export interface RequestOpts \x7b",
    "  path: string;",
    "  method: HTTPMethod;",
    "  headers: HTTPHeaders;",
    "  query?: HTTPQuery;",
    "  body?: HTTPBody;",
    "\x7d"]

/-- Whether a value has a key. -/
def existsFunction : RuntimeItem where
  exports := ["exists"]
  lines := [
    "export function exists(json: any, key: string) \x7b",
    "  const value = json[key];",
    "  return value !== null && value !== undefined;",
    "\x7d"]

/-- The text of a query. -/
def querystring : RuntimeItem where
  exports := ["querystring"]
  lines := [
    "export function querystring(params: HTTPQuery, prefix: string = ''): string \x7b",
    "  return Object.keys(params)",
    "    .map((key) => querystringSingleKey(key, params[key], prefix))",
    "    .filter((part) => part.length > 0)",
    "    .join('&');",
    "\x7d"]

/-- The text of one key of a query. -/
def querystringSingleKey : RuntimeItem where
  exports := []
  lines := [
    "function querystringSingleKey(",
    "  key: string,",
    "  value: string | number | null | undefined | boolean | Array<string | number | null | boolean> | Set<string | number | null | boolean> | HTTPQuery,",
    "  keyPrefix: string = '',",
    "): string \x7b",
    "  const fullKey = keyPrefix + (keyPrefix.length ? \x60[$\x7bkey\x7d]\x60 : key);",
    "  if (value instanceof Array) \x7b",
    "    const multiValue = value.map((singleValue) => encodeURIComponent(String(singleValue))).join(\x60&$\x7bencodeURIComponent(fullKey)\x7d=\x60);",
    "    return \x60$\x7bencodeURIComponent(fullKey)\x7d=$\x7bmultiValue\x7d\x60;",
    "  \x7d",
    "  if (value instanceof Set) \x7b",
    "    const valueAsArray = Array.from(value);",
    "    return querystringSingleKey(key, valueAsArray, keyPrefix);",
    "  \x7d",
    "  if (value instanceof Date) \x7b",
    "    return \x60$\x7bencodeURIComponent(fullKey)\x7d=$\x7bencodeURIComponent(value.toISOString())\x7d\x60;",
    "  \x7d",
    "  if (value instanceof Object) \x7b",
    "    return querystring(value as HTTPQuery, fullKey);",
    "  \x7d",
    "  return \x60$\x7bencodeURIComponent(fullKey)\x7d=$\x7bencodeURIComponent(String(value))\x7d\x60;",
    "\x7d"]

/-- Changes every value of an object. -/
def mapValues : RuntimeItem where
  exports := ["mapValues"]
  lines := [
    "export function mapValues(data: any, fn: (item: any) => any) \x7b",
    "  return Object.keys(data).reduce((acc, key) => (\x7b ...acc, [key]: fn(data[key]) \x7d), \x7b\x7d);",
    "\x7d"]

/-- What middleware gets before a request. -/
def requestContext : RuntimeItem where
  exports := ["RequestContext"]
  lines := [
    "export interface RequestContext \x7b",
    "  fetch: FetchAPI;",
    "  url: string;",
    "  init: RequestInit;",
    "\x7d"]

/-- What middleware gets after a response. -/
def responseContext : RuntimeItem where
  exports := ["ResponseContext"]
  lines := [
    "export interface ResponseContext \x7b",
    "  fetch: FetchAPI;",
    "  url: string;",
    "  init: RequestInit;",
    "  response: Response;",
    "\x7d"]

/-- What middleware gets after an error. -/
def errorContext : RuntimeItem where
  exports := ["ErrorContext"]
  lines := [
    "export interface ErrorContext \x7b",
    "  fetch: FetchAPI;",
    "  url: string;",
    "  init: RequestInit;",
    "  error: unknown;",
    "  response?: Response;",
    "\x7d"]

/-- Functions that run around every request. -/
def middleware : RuntimeItem where
  exports := ["Middleware"]
  lines := [
    "export interface Middleware \x7b",
    "  pre?(context: RequestContext): Promise<FetchParams | void>;",
    "  post?(context: ResponseContext): Promise<Response | void>;",
    "  onError?(context: ErrorContext): Promise<Response | void>;",
    "\x7d"]

/-- A response with its value. -/
def apiResponse : RuntimeItem where
  exports := ["ApiResponse"]
  lines := [
    "export interface ApiResponse<T> \x7b",
    "  raw: Response;",
    "  value(): Promise<T>;",
    "\x7d"]

/-- A function from JSON to values. -/
def responseTransformer : RuntimeItem where
  exports := ["ResponseTransformer"]
  lines := [
    "export interface ResponseTransformer<T> \x7b",
    "  (json: any): T;",
    "\x7d"]

/-- A response whose value is JSON. -/
def jsonApiResponse : RuntimeItem where
  exports := ["JSONApiResponse"]
  lines := [
    "export class JSONApiResponse<T> \x7b",
    "  constructor(public raw: Response, private transformer: ResponseTransformer<T> = (jsonValue: any) => jsonValue) \x7b\x7d",
    "",
    "  async value(): Promise<T> \x7b",
    "    return this.transformer(await this.raw.json());",
    "  \x7d",
    "\x7d"]

/-- A response without a value. -/
def voidApiResponse : RuntimeItem where
  exports := ["VoidApiResponse"]
  lines := [
    "export class VoidApiResponse \x7b",
    "  constructor(public raw: Response) \x7b\x7d",
    "",
    "  async value(): Promise<void> \x7b",
    "    return undefined;",
    "  \x7d",
    "\x7d"]

/-- A response whose value is binary. -/
def blobApiResponse : RuntimeItem where
  exports := ["BlobApiResponse"]
  lines := [
    "export class BlobApiResponse \x7b",
    "  constructor(public raw: Response) \x7b\x7d",
    "",
    "  async value(): Promise<Blob> \x7b",
    "    return await this.raw.blob();",
    "  \x7d",
    "\x7d"]

/-- A response whose value is text. -/
def textApiResponse : RuntimeItem where
  exports := ["TextApiResponse"]
  lines := [
    "export class TextApiResponse \x7b",
    "  constructor(public raw: Response) \x7b\x7d",
    "",
    "  async value(): Promise<string> \x7b",
    "    return await this.raw.text();",
    "  \x7d",
    "\x7d"]

end RuntimeItem

open RuntimeItem in
/-- The parts of the run-time module that do not depend on the document. -/
def runtimeItems : List RuntimeItem := [
  configurationParameters, configuration, defaultConfig, baseApi, responseError, fetchError,
  requiredError, collectionFormats, fetchApi, requestTypes, initOverrideFunction, fetchParams,
  requestOpts, existsFunction, querystring, querystringSingleKey, mapValues, requestContext,
  responseContext, errorContext, middleware, apiResponse, responseTransformer, jsonApiResponse,
  voidApiResponse, blobApiResponse, textApiResponse]

/-- The line that names the server. -/
def basePathLine (basePath : String) : String :=
  "export const BASE_PATH = " ++ Source.singleQuoted basePath ++ ".replace(/\\/+$/, '');"

/-- The names that the run-time module exports. -/
def runtimeExports : List String := "BASE_PATH" :: runtimeItems.flatMap (·.exports)

/-- The text of the run-time module. -/
def runtimeText (title version basePath : String) : String :=
  Source.banner title version .slashes ++ "\n\n" ++ basePathLine basePath ++ "\n\n"
    ++ "\n\n".intercalate (runtimeItems.map fun i => Text.unlines i.lines) ++ "\n"

end ClientGen.Package
